import BuildTree.Proofs.Turns

/-!
# Continuations of a diagnostic

From wherever a cursor stands, the lines that continue a diagnostic are read up to the first one
that does not, and that one is pending again.  Each line that was read puts a line feed and its
trimmed text at the end of the message, and nothing else is put there.

    pending lines = run ++ rest,   every line of run continues, the first of rest does not
    text afterwards = text ++ line feed ++ trimmed line ++ …       for the lines of run, in order
    pending afterwards = rest                                     (readContinuation_takes_run)
-/

namespace BuildTree

/-! ## Algorithm -/

/-- A raw line continues a diagnostic of a level: what it shows is of that level, begins with a
blank and is not all blank. -/
structure Line.Continues (level : Option Level) (raw : String) : Prop where
  level : (classify raw).level = level
  indented : ∃ c rest, (classify raw).text.toList = c :: rest ∧ Text.isBlank c = true
  visible : ∃ c ∈ (classify raw).text.toList, Text.isBlank c = false

/-! ## Lemmas -/

theorem Line.follows_iff {level : Option Level} {raw : String} :
    Line.follows level raw = true ↔ Line.Continues level raw := by
  have hstarts : Text.startsBlank (classify raw).text.toList = true ↔
      ∃ c rest, (classify raw).text.toList = c :: rest ∧ Text.isBlank c = true := by
    cases (classify raw).text.toList with
    | nil => simp [Text.startsBlank]
    | cons c rest => simp [Text.startsBlank]
  have hall : Text.allBlank (classify raw).text.toList = false ↔
      ∃ c ∈ (classify raw).text.toList, Text.isBlank c = false := by
    simp [Text.allBlank]
  rw [follows, continues, Bool.and_eq_true, Bool.and_eq_true, beq_iff_eq, Bool.not_eq_true', hstarts,
    hall, and_assoc]
  constructor
  · rintro ⟨hlevel, hindented, hvisible⟩
    exact ⟨hlevel, hindented, hvisible⟩
  · rintro ⟨hlevel, hindented, hvisible⟩
    exact ⟨hlevel, hindented, hvisible⟩

/-- Every further line stands behind a line feed. -/
theorem Diagnostic.toList_extend (d : Diagnostic) (texts : List String) :
    (d.extend texts).message.toList =
      d.message.toList ++ texts.flatMap fun t => '\n' :: t.toList := by
  rw [extend]
  induction texts generalizing d with
  | nil => simp
  | cons t texts ih =>
    have htail := ih { d with message := d.message ++ "\n" ++ t }
    simpa using htail

/-! ## Top theorem -/

namespace Cursor

/-- The cursor reads the longest run of pending lines that continue a diagnostic.  The message gets
a line feed and the trimmed text of each, in order, and the rest stays pending from the first line
on that does not continue. -/
theorem readContinuation_takes_run (level : Option Level) (c : Cursor) (d : Diagnostic) :
    ∃ run rest, c.pending = run ++ rest ∧
      (∀ raw ∈ run, Line.Continues level raw) ∧
      (∀ raw ∈ rest.head?, ¬ Line.Continues level raw) ∧
      (d.extend (c.readContinuation level).1).message.toList =
        d.message.toList ++
          run.flatMap (fun raw => '\n' :: Text.trim (Line.classify raw).text.toList) ∧
      (c.readContinuation level).2.pending = rest := by
  obtain ⟨htexts, hrest⟩ := c.readContinuation_eq level
  refine ⟨c.pending.takeWhile (Line.follows level), c.pending.dropWhile (Line.follows level),
    List.takeWhile_append_dropWhile.symm, fun raw hraw => ?_, fun raw hraw hcontinues => ?_, ?_,
    hrest⟩
  · exact Line.follows_iff.1 (List.all_eq_true.1 List.all_takeWhile raw hraw)
  · have hstop : Line.follows level raw = false := by
      have hhead := List.head?_dropWhile_not (Line.follows level) c.pending
      rwa [Option.mem_def.1 hraw] at hhead
    rw [Line.follows_iff.2 hcontinues] at hstop
    cases hstop
  · rw [Diagnostic.toList_extend, htexts, List.flatMap_map]
    simp [Line.extra, Line.trimmed]

end Cursor

end BuildTree
