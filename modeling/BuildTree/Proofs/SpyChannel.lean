import BuildTree.Proofs.Observers
import BuildTree.Proofs.Verdict

/-!
# The spy channel of a run

Until the build reports the end of its session, the lines of the spy channel are for the tracker.
A line belongs to the channel by how it begins, but it is folded into a diagnostic by what it shows
behind its last carriage return.  So a line that redraws itself can be folded in, and the tracker
never hears it.

    until the end    the spy lines are heard, but for those that a turn folds in   (heard_eq_iff)
    folded spy line  redraws itself, as a continuation of the diagnostic           (redraws_of_folded)
    after the end    nothing is heard                                              (Over.phase_turns)
-/

namespace BuildTree.Session

open Execution Spy

/-! ## Algorithm -/

namespace Turn

/-- The lines that a turn takes: its own line and those that it folds in. -/
def lines (o : Setup) (t : Turn) : List String := t.raw :: t.folded o

/-- Whether the tracker gets the line of a turn. -/
def hears (t : Turn) : Bool := t.session.phase == .active && isSpyLine t.raw

/-- How many turns there are up to the first whose line reports the end of the session, with it. -/
def lasting (ts : List Turn) : Nat := ts.findIdx (fun t => reports .sessionEnded t.raw) + 1

/-- The lines that the tracker gets, in some turns. -/
def heard (ts : List Turn) : List String := (ts.filter hears).map (·.raw)

end Turn

/-! ## Lemmas -/

variable {o : Setup} {s : Session} {t : Turn} {ts : List Turn} {failed : Bool}

theorem Turn.parse_of_hears (h : t.hears = true) :
    t.parse o = (fun s => (true, s, t.cursor)) <$>
      t.session.ticked.spyLine o t.raw (o.clock t.session.ticks) := by
  obtain ⟨hphase, hspy⟩ := Bool.and_eq_true_iff.1 h
  exact parseLine_spy (beq_iff_eq.1 hphase) hspy

/-- A spy line that a turn folds in shows a continuation behind a carriage return. -/
theorem Turn.redraws_of_folded (hm : ∀ m ∈ t.session.matchers, m.IsBuiltIn) {raw : String}
    (hraw : raw ∈ t.folded o) (hspy : isSpyLine raw = true) :
    redraws raw = true ∧ Line.follows (Line.classify t.raw).level raw = true := by
  rcases (t.takes o hm).2 with hnil | ⟨-, -, hfollows, -⟩
  · rw [hnil] at hraw
    cases hraw
  · refine ⟨?_, hfollows raw hraw⟩
    by_contra hplain
    have hnot := not_follows_of_isSpyLine hspy (by simpa using hplain) (Line.classify t.raw).level
    rw [hfollows raw hraw] at hnot
    cases hnot

/-! ## Until the end, and after it -/

theorem Over.phase_turns (h : Over failed s) (ls : List (String × Cursor)) :
    ∀ t ∈ s.turns o ls, t.session.phase = .ended := by
  induction ls generalizing s failed with
  | nil => intro t ht; cases ht
  | cons l ls ih =>
    exact List.forall_mem_cons.2 ⟨h.phase, ih (h.parseLine o l.1 l.2).1⟩

theorem Running.phase_turns (h : Running failed s) (ho : o.BuiltIn)
    (hm : ∀ m ∈ s.matchers, m.IsBuiltIn) (ls : List (String × Cursor)) :
    (∀ t ∈ (s.turns o ls).take (Turn.lasting (s.turns o ls)), t.session.phase = .active) ∧
    ∀ t ∈ (s.turns o ls).drop (Turn.lasting (s.turns o ls)), t.session.phase = .ended := by
  induction ls generalizing s failed with
  | nil => exact ⟨fun t ht => absurd ht List.not_mem_nil, fun t ht => absurd ht List.not_mem_nil⟩
  | cons l ls ih =>
    obtain ⟨raw, cursor⟩ := l
    rw [turns, Turn.lasting, List.findIdx_cons, List.take_succ_cons, List.drop_succ_cons]
    cases hr : reports .sessionEnded raw with
    | true =>
      have hover := (h.parseLine_ends ho hm cursor hr).1
      exact ⟨List.forall_mem_singleton.2 h.phase, hover.phase_turns ls⟩
    | false =>
      have hrun := (h.parseLine ho hm cursor hr).1
      obtain ⟨hactive, hended⟩ := ih hrun (isBuiltIn_call hm (.line raw cursor))
      exact ⟨List.forall_mem_cons.2 ⟨h.phase, hactive⟩, hended⟩

theorem Turn.heard_of_active (h : ∀ t ∈ ts, t.session.phase = .active) :
    heard ts = (ts.map (·.raw)).filter isSpyLine := by
  rw [heard, List.filter_map]
  refine congrArg _ (List.filter_congr fun t ht => ?_)
  rw [hears, h t ht]
  rfl

theorem Turn.heard_of_ended (h : ∀ t ∈ ts, t.session.phase = .ended) : heard ts = [] := by
  rw [heard, List.map_eq_nil_iff, List.filter_eq_nil_iff]
  intro t ht
  rw [hears, h t ht]
  exact Bool.false_ne_true

/-! ## What is lost -/

theorem Turn.countP_lines (o : Setup) (p : String → Bool) (ts : List Turn) :
    (ts.flatMap (lines o)).countP p =
      (ts.map (·.raw)).countP p + (ts.flatMap (folded o)).countP p := by
  induction ts with
  | nil => rfl
  | cons t ts ih =>
    simp only [List.flatMap_cons, List.map_cons, List.countP_append, List.countP_cons, lines, ih]
    omega

/-- The spy lines that running turns take are the ones heard exactly if none of them is folded in. -/
theorem Turn.heard_eq_iff (h : ∀ t ∈ ts, t.session.phase = .active) :
    heard ts = (ts.flatMap (lines o)).filter isSpyLine ↔
      ∀ t ∈ ts, ∀ raw ∈ t.folded o, isSpyLine raw = false := by
  rw [heard_of_active h]
  refine ⟨fun heq t ht raw hraw => ?_, fun hnone => ?_⟩
  · -- the turns take their own lines and no fewer, so with equal lists nothing folded in counts
    have hlength := congrArg List.length heq
    rw [← List.countP_eq_length_filter, ← List.countP_eq_length_filter, countP_lines] at hlength
    have hzero : (ts.flatMap (folded o)).countP isSpyLine = 0 := by omega
    simpa using List.countP_eq_zero.1 hzero raw (List.mem_flatMap.2 ⟨t, ht, hraw⟩)
  · induction ts with
    | nil => rfl
    | cons t ts ih =>
      have hfolded : (t.folded o).filter isSpyLine = [] :=
        List.filter_eq_nil_iff.2 fun raw hraw => by simp [hnone t List.mem_cons_self raw hraw]
      have hrest := ih (fun t ht => h t (List.mem_cons_of_mem _ ht)) fun t ht =>
        hnone t (List.mem_cons_of_mem _ ht)
      rw [List.flatMap_cons, lines, List.cons_append, List.map_cons, List.filter_cons,
        List.filter_cons, List.filter_append, hfolded, List.nil_append, hrest]

/-! ## Main results -/

/-- The lines of a run are those taken until its session ends, by the first turn that reports it,
and those taken after it.  Of the former the tracker gets the spy lines, all of them exactly if no
turn folds one into its diagnostic; one that is folded in redraws itself as a continuation, so if no
line does the tracker gets them all. -/
theorem run_heard_iff (settings : Settings) (clock : Nat → Nat) (n : Nat) (lines : List String) :
    let o := Setup.ofSettings settings clock
    let turns := (start settings (.fresh n)).runTurns o lines
    let past := turns.take (Turn.lasting turns)
    lines = past.flatMap (Turn.lines o) ++
      (turns.drop (Turn.lasting turns)).flatMap (Turn.lines o) ∧
    (∀ t ∈ turns, t.hears = true → t.parse o = (fun s => (true, s, t.cursor)) <$>
      t.session.ticked.spyLine o t.raw (clock t.session.ticks)) ∧
    (Turn.heard turns = (past.flatMap (Turn.lines o)).filter isSpyLine ↔
      ∀ t ∈ past, ∀ raw ∈ t.folded o, isSpyLine raw = false) ∧
    (∀ t ∈ turns, ∀ raw ∈ t.folded o, isSpyLine raw = true →
      redraws raw = true ∧ Line.follows (Line.classify t.raw).level raw = true) ∧
    ((∀ raw ∈ lines, redraws raw = false) →
      Turn.heard turns = (past.flatMap (Turn.lines o)).filter isSpyLine) := by
  intro o turns past
  have ho : o.BuiltIn := Setup.builtIn_ofSettings settings clock
  have hm := builtIn_start settings (.fresh n)
  have hrun : Running false (start settings (.fresh n)) := ⟨rfl, rfl, rfl⟩
  obtain ⟨hactive, hended⟩ :=
    hrun.phase_turns ho hm ((start settings (.fresh n)).handed o (.ofLines lines))
  have htaken : lines = turns.flatMap (Turn.lines o) := pending_eq_turns hm (.ofLines lines)
  have hheard : Turn.heard turns = (past.flatMap (Turn.lines o)).filter isSpyLine ↔
      ∀ t ∈ past, ∀ raw ∈ t.folded o, isSpyLine raw = false := by
    have hpast : Turn.heard turns = Turn.heard past := by
      rw [← List.take_append_drop (Turn.lasting turns) turns, Turn.heard, List.filter_append,
        List.map_append]
      exact (congrArg _ (Turn.heard_of_ended hended)).trans (List.append_nil _)
    rw [hpast]
    exact Turn.heard_eq_iff hactive
  have hredraws : ∀ t ∈ turns, ∀ raw ∈ t.folded o, isSpyLine raw = true →
      redraws raw = true ∧ Line.follows (Line.classify t.raw).level raw = true :=
    fun t ht raw hraw hspy => Turn.redraws_of_folded (builtIn_turns hm _ t ht) hraw hspy
  refine ⟨?_, fun t _ h => t.parse_of_hears h, hheard, hredraws, fun hplain => ?_⟩
  · rw [← List.flatMap_append, List.take_append_drop]
    exact htaken
  · refine hheard.2 fun t ht raw hraw => ?_
    have hturn : t ∈ turns := List.mem_of_mem_take ht
    have hmem : raw ∈ lines := by
      rw [htaken]
      exact List.mem_flatMap.2 ⟨t, hturn, List.mem_cons_of_mem _ hraw⟩
    by_contra hspy
    have hagain := (hredraws t hturn raw hraw (by simpa using hspy)).1
    rw [hplain raw hmem] at hagain
    cases hagain

/-- The start of a project that redraws itself as a continuation of the diagnostic before it. -/
theorem not_heard_redrawn :
    ¬ ∀ (settings : Settings) (clock : Nat → Nat) (n : Nat) (lines : List String),
      let o := Setup.ofSettings settings clock
      let turns := (start settings (.fresh n)).runTurns o lines
      Turn.heard turns =
        ((turns.take (Turn.lasting turns)).flatMap (Turn.lines o)).filter isSpyLine := by
  intro h
  have hheard := h {} (fun _ => 0) 1
    ["[ERROR] A.java:[3,1] wrong type",
      "[IJ]-0-[IJ]-ProjectStarted-[IJ]-id=app-[IJ]-note=x\r[ERROR]   found: int"]
  revert hheard
  decide +kernel

end BuildTree.Session
