import BuildTree.Proofs.HostRules
import BuildTree.Proofs.Steps

/-!
# The turns of a run

A run takes its lines in turns.  A turn parses one line; if that line is a diagnostic of the Java
compiler, the lines right behind it that continue it are folded into its message, and no later
turn sees them.

    lines = what the turns take, in order: the line of each and the lines it folded in
    a turn that folded lines in   emits one message, which they end, line for line
    turns of a run                as many as there are lines, at most
-/

namespace BuildTree

open Execution Spy

/-! ## Algorithm -/

/-- Whether a raw line continues a diagnostic of a level. -/
def Line.follows (level : Option Level) (raw : String) : Bool := (Line.classify raw).continues level

/-- What a raw line adds to a diagnostic that it continues. -/
def Line.extra (raw : String) : String := (Line.classify raw).trimmed

def Event.isDiagnostic : Event → Bool
  | .message .. => true
  | _ => false

/-- The message of a line that is a diagnostic of the Java compiler, with further lines. -/
def Javac.report (parent : EventId) (line : Line) (d : Diagnostic) (extras : List String) : Event :=
  Diagnostic.toEvent parent (Severity.ofLevel line.level) (d.extend extras).message
    (some d.position)

/-- What built-in matchers emit for a line and what they leave of the cursor: all of it, or all but
the lines that a diagnostic of the Java compiler folds in. -/
def LineMatcher.Reads (parent : EventId) (line : Line) (cursor : Cursor) (es : List Event)
    (rest : Cursor) : Prop :=
  rest = cursor ∨ ∃ d, Javac.parse? line.text = some d ∧
    es = [Javac.report parent line d (cursor.readContinuation line.level).1] ∧
    rest = (cursor.readContinuation line.level).2

namespace Session

/-- One turn of a run: the session before it, its line, and the cursor behind the line. -/
structure Turn where
  session : Session
  raw : String
  cursor : Cursor

namespace Turn

def parse (o : Setup) (t : Turn) : Emits (Bool × Session × Cursor) :=
  t.session.parseLine o t.raw t.cursor

/-- The lines behind its own line that a turn takes away from the cursor. -/
def folded (o : Setup) (t : Turn) : List String :=
  t.cursor.pending.take (t.cursor.size - (t.parse o).value.2.2.size)

end Turn

/-- The turns for lines that are parsed one after the other. -/
def turns (o : Setup) (s : Session) : List (String × Cursor) → List Turn
  | [] => []
  | (raw, cursor) :: ls =>
    ⟨s, raw, cursor⟩ :: turns o (s.parseLine o raw cursor).value.2.1 ls

def runTurns (o : Setup) (s : Session) (lines : List String) : List Turn :=
  s.turns o (s.handed o (.ofLines lines))

end Session

/-! ## Lemmas -/

/-- Continuation lines are the longest prefix of the pending lines that continue. -/
theorem Cursor.readContinuation_eq (level : Option Level) (c : Cursor) :
    (c.readContinuation level).1 = (c.pending.takeWhile (Line.follows level)).map Line.extra ∧
    (c.readContinuation level).2.pending = c.pending.dropWhile (Line.follows level) := by
  fun_induction readContinuation level c with
  | case1 c h =>
    rw [next?_eq_none_iff.1 h]
    exact ⟨rfl, rfl⟩
  | case2 c raw rest h hcont texts final heq ih =>
    have hfollows : Line.follows level raw = true := hcont
    rw [heq] at ih
    rw [(pending_of_next? h).1, List.takeWhile_cons_of_pos hfollows,
      List.dropWhile_cons_of_pos hfollows, List.map_cons, ← ih.1]
    exact ⟨rfl, ih.2⟩
  | case3 c raw rest h hcont =>
    have hfollows : ¬ Line.follows level raw = true := hcont
    rw [(giveBack_next? h).1, (pending_of_next? h).1, List.takeWhile_cons_of_neg hfollows,
      List.dropWhile_cons_of_neg hfollows]
    exact ⟨rfl, rfl⟩

namespace LineMatcher

variable {parent : EventId} {line : Line} {cursor : Cursor} {m : LineMatcher}
  {ms : List LineMatcher}

/-- A built-in matcher that does not take a line emits nothing and leaves the cursor as it is. -/
theorem idle_of_not_taken (hm : m.IsBuiltIn) (context : Context)
    (h : (m.tryConsume context parent line cursor).value.1 = false) :
    (m.tryConsume context parent line cursor).events = [] ∧
    (m.tryConsume context parent line cursor).value.2.2 = cursor := by
  rcases tryConsume_cases hm context parent line cursor with ⟨-, hidle⟩ | ⟨htaken, -⟩
  · exact hidle
  · rw [htaken] at h
    cases h

theorem reads_tryConsume (hm : m.IsBuiltIn) (context : Context) (parent : EventId) (line : Line)
    (cursor : Cursor) :
    Reads parent line cursor (m.tryConsume context parent line cursor).events
      (m.tryConsume context parent line cursor).value.2.2 := by
  cases m with
  | javac tally =>
    simp only [tryConsume, Emits.events_bind, Emits.value_bind, Emits.events_pure,
      Emits.value_pure, List.append_nil, Javac.tryConsume]
    split
    · exact Or.inl rfl
    · split
      · exact Or.inl rfl
      · next d hd => exact Or.inr ⟨d, hd, rfl, rfl⟩
  | kotlin => exact Or.inl rfl
  | rule r => exact hm.elim

theorem reads_offer (hms : ∀ m ∈ ms, m.IsBuiltIn) (context : Context) (parent : EventId)
    (line : Line) (cursor : Cursor) :
    Reads parent line cursor (offer context parent line cursor ms).events
      (offer context parent line cursor ms).value.2.2 := by
  induction ms with
  | nil => exact Or.inl rfl
  | cons m ms ih =>
    have hrest := ih fun m' hm' => hms m' (List.mem_cons_of_mem _ hm')
    have hm := hms m List.mem_cons_self
    unfold offer
    split
    · have hreads := reads_tryConsume hm context parent line cursor
      simp only [Emits.events_bind, Emits.value_bind]
      split
      · simpa using hreads
      · next htaken =>
        -- a matcher that let the line pass did not touch the cursor
        obtain ⟨hes, hcursor⟩ := idle_of_not_taken hm context (by simpa using htaken)
        simpa [hes, hcursor] using hrest
    · simpa using hrest

end LineMatcher

namespace Session

variable {o : Setup} {s : Session}

/-! ## What a turn takes -/

/-- A line leaves the cursor as it is, or it is a diagnostic that folds in what continues it; then
its one message has their texts. -/
theorem parseLine_reads (hm : ∀ m ∈ s.matchers, m.IsBuiltIn) (raw : String) (cursor : Cursor) :
    (s.parseLine o raw cursor).value.2.2 = cursor ∨
    (s.phase = .active ∧ isSpyLine raw = false ∧ ∃ d, Javac.parse? (Line.classify raw).text = some d ∧
      (s.parseLine o raw cursor).events.filter Event.isDiagnostic =
        [Javac.report s.context.currentId (Line.classify raw) d
          (cursor.readContinuation (Line.classify raw).level).1] ∧
      (s.parseLine o raw cursor).value.2.2 =
        (cursor.readContinuation (Line.classify raw).level).2) := by
  rcases parseLine_cases o s raw cursor with
    ⟨-, h⟩ | ⟨-, -, h⟩ | ⟨-, -, -, h⟩ | ⟨hphase, hspy, -, h⟩
  · exact Or.inl (by rw [h]; rfl)
  · exact Or.inl (by rw [h]; rfl)
  · exact Or.inl (by rw [h]; rfl)
  · have hforward : (if o.forward then (forward s.ticked.context raw).events else []).filter
        Event.isDiagnostic = [] := by
      split
      · exact filter_forward (fun _ _ => rfl) _ raw
      · rfl
    rw [h, value_plainLine, events_plainLine, List.filter_append, hforward, List.nil_append]
    rcases LineMatcher.reads_offer hm s.context s.context.currentId (Line.classify raw) cursor with
      hsame | ⟨d, hd, hes, hrest⟩
    · exact Or.inl hsame
    · refine Or.inr ⟨hphase, hspy, d, hd, ?_, hrest⟩
      exact congrArg (List.filter Event.isDiagnostic) hes

theorem Turn.folded_eq {t : Turn} {pre : List String}
    (h : t.cursor.pending = pre ++ (t.parse o).value.2.2.pending) : t.folded o = pre := by
  simp [folded, Cursor.size, h]

/-- The lines that a turn folds in are the first behind its own line.  If there are any, the turn
emits one message and they are its further lines. -/
theorem Turn.takes (o : Setup) {t : Turn} (hm : ∀ m ∈ t.session.matchers, m.IsBuiltIn) :
    t.cursor.pending = t.folded o ++ (t.parse o).value.2.2.pending ∧
    (t.folded o = [] ∨
      t.session.phase = .active ∧ isSpyLine t.raw = false ∧
      (∀ raw ∈ t.folded o, Line.follows (Line.classify t.raw).level raw = true) ∧
      ∃ d, Javac.parse? (Line.classify t.raw).text = some d ∧
        (t.parse o).events.filter Event.isDiagnostic =
          [Javac.report t.session.context.currentId (Line.classify t.raw) d
            ((t.folded o).map Line.extra)]) := by
  rcases parseLine_reads (o := o) hm t.raw t.cursor with hsame | ⟨hphase, hspy, d, hd, hes, hrest⟩
  · have hpre : t.cursor.pending = [] ++ (t.parse o).value.2.2.pending := by
      rw [Turn.parse, hsame, List.nil_append]
    rw [folded_eq hpre]
    exact ⟨hpre, Or.inl rfl⟩
  · obtain ⟨hextras, hpending⟩ :=
      t.cursor.readContinuation_eq (Line.classify t.raw).level
    have hpre : t.cursor.pending =
        t.cursor.pending.takeWhile (Line.follows (Line.classify t.raw).level) ++
          (t.parse o).value.2.2.pending := by
      rw [Turn.parse, hrest, hpending, List.takeWhile_append_dropWhile]
    rw [hextras] at hes
    rw [folded_eq hpre]
    refine ⟨hpre, Or.inr ⟨hphase, hspy, fun raw hraw => ?_, d, hd, hes⟩⟩
    exact List.all_eq_true.1 List.all_takeWhile raw hraw

/-! ## What a run takes -/

theorem builtIn_turns (hm : ∀ m ∈ s.matchers, m.IsBuiltIn) (ls : List (String × Cursor)) :
    ∀ t ∈ s.turns o ls, ∀ m ∈ t.session.matchers, m.IsBuiltIn := by
  induction ls generalizing s with
  | nil => intro t ht; cases ht
  | cons l ls ih =>
    intro t ht
    rcases List.mem_cons.1 ht with rfl | ht
    · exact hm
    · exact ih (isBuiltIn_call hm (.line l.1 l.2)) t ht

/-- The turns take every pending line, in order. -/
theorem pending_eq_turns (hm : ∀ m ∈ s.matchers, m.IsBuiltIn) (cursor : Cursor) :
    cursor.pending = (s.turns o (s.handed o cursor)).flatMap fun t => t.raw :: t.folded o := by
  fun_induction handed o s cursor with
  | case1 s cursor h => rw [Cursor.next?_eq_none_iff.1 h]; rfl
  | case2 s cursor raw rest h x ih =>
    have htake := (Turn.takes o (t := ⟨s, raw, rest⟩) hm).1
    have hrest := ih (isBuiltIn_call hm (.line raw rest))
    rw [turns, List.flatMap_cons, ← hrest, (Cursor.pending_of_next? h).1, List.cons_append]
    exact congrArg (raw :: ·) htake

theorem length_handed_le (o : Setup) (s : Session) (cursor : Cursor) :
    (s.handed o cursor).length ≤ cursor.size := by
  fun_induction handed o s cursor with
  | case1 => exact Nat.zero_le _
  | case2 s cursor raw rest h x ih =>
    have htaken := Cursor.size_of_next? h
    have hleft : x.value.2.2.size ≤ rest.size := s.size_parseLine_le o raw rest
    rw [List.length_cons]
    omega

theorem events_lineCalls (o : Setup) (s : Session) (ls : List (String × Cursor)) :
    (s.calls o (lineCalls ls)).events = (s.turns o ls).flatMap fun t => (t.parse o).events := by
  induction ls generalizing s with
  | nil => rfl
  | cons l ls ih =>
    rw [turns, List.flatMap_cons, ← ih]
    simp [lineCalls, call, Turn.parse]

theorem events_run (o : Setup) (s : Session) (lines : List String) :
    (s.run o lines).events = (s.runTurns o lines).flatMap (fun t => (t.parse o).events) ++
      ((s.parseAll o (.ofLines lines)).value.finish o).events := by
  rw [runTurns, ← events_lineCalls, ← parseAll_eq_calls]
  rfl

/-! ## Top theorems -/

/-- A run ends, whatever careful matchers the host adds, after a turn for every line at most.  With
the built-in matchers alone each line of the output is parsed in one turn or folded into the one
message of a turn, whose line is a diagnostic right before it and the other folded ones. -/
theorem run_takes_lines (settings : Settings) (clock : Nat → Nat) (n : Nat)
    (lines : List String) :
    let o := Setup.ofSettings settings clock
    let s := start settings (.fresh n)
    let turns := s.runTurns o lines
    (∀ (o' : Setup) (hosts : List HostRule) (builtIn : Bool),
      ((start settings (.fresh n) (hosts.map HostRule.rule) builtIn).handed o'
        (.ofLines lines)).length ≤ lines.length) ∧
    (∀ o' k c, Advances o' k (.ofLines lines) c → k ≤ lines.length) ∧
    lines = turns.flatMap (fun t => t.raw :: t.folded o) ∧
    (s.run o lines).events = turns.flatMap (fun t => (t.parse o).events) ++
      ((s.parseAll o (.ofLines lines)).value.finish o).events ∧
    ∀ t ∈ turns, t.folded o = [] ∨
      ∃ d, Javac.parse? (Line.classify t.raw).text = some d ∧
        (t.parse o).events.filter Event.isDiagnostic =
          [Javac.report t.session.context.currentId (Line.classify t.raw) d
            ((t.folded o).map Line.extra)] := by
  intro o s turns
  have hm := builtIn_start settings (.fresh n)
  refine ⟨fun o' hosts builtIn => length_handed_le o' _ _, fun o' k c h => ?_, ?_,
    events_run o s lines, fun t ht => ?_⟩
  · exact Nat.le_trans (Nat.le_add_right k c.size) h.size_le
  · exact pending_eq_turns (o := o) hm (.ofLines lines)
  · rcases (t.takes o (builtIn_turns hm _ t ht)).2 with hnil | ⟨-, -, -, hd⟩
    · exact Or.inl hnil
    · exact Or.inr hd

/-- The indented line goes with the diagnostic, the line after it has a turn of its own. -/
example :
    let o := Setup.ofSettings {} fun _ => 0
    ((start {} (.fresh 1)).runTurns o
      ["[ERROR] A.java:[3,1] wrong type", "[ERROR]   found: int", "[ERROR] done"]).map
        (fun t => (t.raw, t.folded o)) =
      [("[ERROR] A.java:[3,1] wrong type", ["[ERROR]   found: int"]), ("[ERROR] done", [])] := by
  decide +kernel

end Session

end BuildTree
