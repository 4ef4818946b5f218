import BuildTree.Diagnostic.Javac
import BuildTree.Proofs.SourcePlaces

/-!
# The grammar of Java compiler lines

A line, blanks around it aside, is a diagnostic if it can be split into a path with its extension,
a line and perhaps a column in brackets, and a message after blanks.  Of several ways to split it
the one with the shortest path is meant.

    tail? r.rest = some (numbers and message of r)      for every reading r
    parse? text = some d   iff   d is what a reading of the shortest path says
-/

namespace BuildTree.Javac

open Text Diagnostic

/-! ## Algorithm -/

/-- A way to split a line: its path without extension, its numbers, the blanks after the bracket,
and what follows them. -/
structure Reading where
  path : List Char
  line : List Char
  column : Option (List Char)
  blanks : List Char
  message : List Char
  pathLike : PathLike path
  lineRun : DigitRun line
  columnRun : ∀ digits, column = some digits → DigitRun digits
  allBlank : allBlank blanks = true
  lineFeed : '\n' ∉ message

namespace Reading

/-- The column with the comma before it. -/
def columnText (r : Reading) : List Char := r.column.elim [] (',' :: ·)

/-- What stands behind the bracket that closes the place. -/
def behind (r : Reading) : List Char := r.blanks ++ r.message

/-- What stands behind the path. -/
def rest (r : Reading) : List Char :=
  extension ++ [':', '['] ++ (r.line ++ (r.columnText ++ ']' :: r.behind))

def text (r : Reading) : List Char := r.path ++ r.rest

/-- What a reading says.  Numbers that are not written in ASCII or are too large are left out. -/
structure Says (r : Reading) (d : Diagnostic) : Prop where
  path : d.position.path = String.ofList r.path ++ ".java"
  line : ∀ n, d.position.line = some n ↔ Writes r.line n
  column : ∀ n, d.position.column = some n ↔ ∃ digits, r.column = some digits ∧ Writes digits n
  message : d.message = String.ofList (trimStart r.behind)

end Reading

/-! ## Lemmas -/

variable {s p : List Char} {r : Reading}

theorem trimStart_append (h : allBlank s = true) (t : List Char) :
    trimStart (s ++ t) = trimStart t :=
  List.dropWhile_append_of_pos (List.all_eq_true.1 h)

theorem tail?_rest (r : Reading) :
    tail? r.rest = some (coordinate? r.line, r.column.bind coordinate?, trimStart r.behind) := by
  have hline : digits? (r.line ++ (r.columnText ++ ']' :: r.behind)) =
      some (r.line, r.columnText ++ ']' :: r.behind) := by
    refine digits?_append r.lineRun fun c hc => ?_
    cases hcolumn : r.column <;> simp [Reading.columnText, hcolumn] at hc <;> subst hc <;> decide
  have hmessage : oneLine? (trimStart r.behind) = some (trimStart r.behind) := by
    refine oneLine?_eq_some_iff.2 ⟨rfl, fun hmem => r.lineFeed ?_⟩
    rw [Reading.behind, trimStart_append r.allBlank] at hmem
    exact (List.dropWhile_sublist _).mem hmem
  simp only [tail?, Reading.rest, after?_append, Option.bind_eq_bind, Option.bind_some, hline]
  cases hcolumn : r.column with
  | none => simp [Reading.columnText, hcolumn, after?, hmessage]
  | some digits =>
    have hdigits : digits? (digits ++ ']' :: r.behind) = some (digits, ']' :: r.behind) :=
      digits?_append (r.columnRun digits hcolumn) fun c hc => by cases hc; decide
    simp [Reading.columnText, hcolumn, after?, hdigits, hmessage]

/-- What the reader reads behind a path is the rest of a reading. -/
theorem exists_reading (hp : PathLike p) (h : (tail? s).isSome) :
    ∃ r : Reading, r.path = p ∧ r.rest = s := by
  obtain ⟨a, ha⟩ := Option.isSome_iff_exists.1 h
  simp only [tail?, Option.bind_eq_bind, Option.bind_eq_some_iff] at ha
  obtain ⟨s₁, hs₁, ⟨line, s₂⟩, hline, ha⟩ := ha
  obtain ⟨rfl, hlineRun, -⟩ := digits?_eq_some_iff.1 hline
  -- with or without a column, the bracket and one line come next
  have hplace : ∃ (column : Option (List Char)) (s₃ m : List Char),
      s₂ = column.elim [] (',' :: ·) ++ ']' :: s₃ ∧
      (∀ digits, column = some digits → DigitRun digits) ∧ oneLine? (trimStart s₃) = some m := by
    split at ha
    · simp only [Option.bind_some, Option.bind_eq_some_iff] at ha
      obtain ⟨s₃, hs₃, m, hm, -⟩ := ha
      obtain rfl := eq_append_of_after? hs₃
      exact ⟨none, s₃, m, rfl, by simp, hm⟩
    · next s' hcomma =>
      simp only [Option.bind_map, Function.comp_def, Option.bind_eq_some_iff] at ha
      obtain ⟨⟨digits, s''⟩, hdigits, s₃, hs₃, m, hm, -⟩ := ha
      obtain ⟨rfl, hrun, -⟩ := digits?_eq_some_iff.1 hdigits
      obtain rfl := eq_append_of_after? hs₃
      obtain rfl := eq_append_of_after? hcomma
      refine ⟨some digits, s₃, m, rfl, fun _ h => ?_, hm⟩
      cases h
      exact hrun
  obtain ⟨column, s₃, m, rfl, hcolumnRun, hm⟩ := hplace
  obtain ⟨hmessage, hlineFeed⟩ := oneLine?_eq_some_iff.1 hm
  refine ⟨⟨p, line, column, s₃.takeWhile isBlank, m, hp, hlineRun, hcolumnRun,
    List.all_takeWhile, hlineFeed⟩, rfl, ?_⟩
  have hbehind : s₃.takeWhile isBlank ++ m = s₃ := by
    rw [← hmessage, trimStart, List.takeWhile_append_dropWhile]
  rw [eq_append_of_after? hs₁]
  simp [Reading.rest, Reading.columnText, Reading.behind, hbehind]

theorem Reading.eq_bind_coordinate?_iff {number : Option Nat} :
    number = r.column.bind coordinate? ↔
      ∀ n, number = some n ↔ ∃ digits, r.column = some digits ∧ Writes digits n := by
  rw [Option.ext_iff]
  refine forall_congr' fun n => iff_congr Iff.rfl ?_
  rw [Option.bind_eq_some_iff]
  exact exists_congr fun digits => and_congr_right fun h =>
    coordinate?_eq_some_iff (r.columnRun digits h)

/-- A reading says one diagnostic. -/
theorem Reading.says_iff {d : Diagnostic} :
    r.Says d ↔ d = ⟨⟨String.ofList (r.path ++ extension), coordinate? r.line,
      r.column.bind coordinate?⟩, String.ofList (trimStart r.behind)⟩ := by
  obtain ⟨⟨path, line, column⟩, message⟩ := d
  simp only [Diagnostic.mk.injEq, Position.mk.injEq]
  constructor
  · rintro ⟨hpath, hline, hcolumn, hmessage⟩
    refine ⟨⟨?_, (eq_coordinate?_iff r.lineRun).2 hline, eq_bind_coordinate?_iff.2 hcolumn⟩,
      hmessage⟩
    rw [String.ofList_append]
    exact hpath
  · rintro ⟨⟨hpath, hline, hcolumn⟩, hmessage⟩
    refine ⟨?_, (eq_coordinate?_iff r.lineRun).1 hline, eq_bind_coordinate?_iff.1 hcolumn, hmessage⟩
    rw [String.ofList_append] at hpath
    exact hpath

/-! ## Top theorem -/

/-- A line is a diagnostic exactly if it can be split so; it is what the way with the shortest path
says. -/
theorem javac_grammar (text : String) :
    ((parse? text).isSome ↔ ∃ r : Reading, r.text = trim text.toList) ∧
    ∀ d, parse? text = some d ↔ ∃ r : Reading, r.text = trim text.toList ∧
      (∀ r' : Reading, r'.text = trim text.toList → r.path.length ≤ r'.path.length) ∧ r.Says d := by
  refine ⟨?_, fun d => ?_⟩
  · rw [parse?, Option.isSome_map, isSome_shortestBefore_iff]
    constructor
    · rintro ⟨path, rest, hs, hpath, hrest⟩
      obtain ⟨r, rfl, rfl⟩ := exists_reading hpath hrest
      exact ⟨r, hs.symm⟩
    · rintro ⟨r, hr⟩
      exact ⟨r.path, r.rest, hr.symm, r.pathLike, Option.isSome_of_eq_some (tail?_rest r)⟩
  · simp only [parse?, Option.map_eq_some_iff, Prod.exists, shortestBefore_eq_some_iff_le]
    constructor
    · rintro ⟨path, line, column, message, ⟨rest, hs, hpath, hrest, hle⟩, rfl⟩
      obtain ⟨r, rfl, rfl⟩ := exists_reading hpath (Option.isSome_of_eq_some hrest)
      refine ⟨r, hs.symm, fun r' hr' => ?_, ?_⟩
      · exact hle r'.path r'.rest hr'.symm r'.pathLike (Option.isSome_of_eq_some (tail?_rest r'))
      · rw [tail?_rest] at hrest
        cases hrest
        exact Reading.says_iff.2 rfl
    · rintro ⟨r, hr, hle, hsays⟩
      refine ⟨r.path, coordinate? r.line, r.column.bind coordinate?, trimStart r.behind,
        ⟨r.rest, hr.symm, r.pathLike, tail?_rest r, fun q t hs hq ht => ?_⟩,
        (Reading.says_iff.1 hsays).symm⟩
      obtain ⟨r', rfl, rfl⟩ := exists_reading hq ht
      exact hle r' hs.symm

/-- The first place may be one that a path goes over, and a column may be too large. -/
example : parse? "a.java:[x] b.java:[3,4294967296] c" =
    some ⟨⟨"a.java:[x] b.java", some 3, none⟩, "c"⟩ := by
  decide +kernel

end BuildTree.Javac
