import BuildTree.Proofs.RootOutcomes
import BuildTree.Proofs.Steps

/-!
# The result of a run

Only three things finish the root of the tree: the message that the session ended, the first
late error line of a session that had not failed, and the end of the output when the session
never ended.  So the result of a run can be read off the lines that were parsed.

    line of a running session   Running f → Running (f || a project failed), or Over f
    line after its end          Over f → Over (f || a late error)
    result (run s lines)        = reported false (the lines parsed)          (run_result)
-/

namespace BuildTree.Session

open Execution Spy Events

/-! ## Algorithm -/

/-- Whether a line is a spy line with a message of one kind. -/
def reports (kind : Kind) (raw : String) : Bool :=
  isSpyLine raw &&
    match decode raw with
    | .ok m => m.kind == kind
    | .error _ => false

/-- Whether a line fails a session that is over. -/
def isLateError (raw : String) : Bool :=
  !isSpyLine raw && (Line.classify raw).level == some .error

/-- The result of a session after some lines, where `failed` says whether a project had failed
before them. -/
def reported (failed : Bool) (lines : List String) : Outcome :=
  match lines.findIdx? (reports .sessionEnded) with
  | none => .unknown
  | some i =>
    if failed || (lines.take i).any (reports .projectFailed) then
      .failure "one or more projects failed"
    else
      match (lines.drop (i + 1)).find? isLateError with
      | some raw => .failure (Line.classify raw).text
      | none => .success

/-- The session runs, and `failed` says whether a project failed so far. -/
structure Running (failed : Bool) (s : Session) : Prop where
  phase : s.phase = .active
  marks : s.context.marks = (false, failed)
  finished : s.finished = false

/-- The session is over, and `failed` says whether it failed so far. -/
structure Over (failed : Bool) (s : Session) : Prop where
  phase : s.phase = .ended
  marks : s.context.marks = (true, failed)

/-! ## Lemmas -/

variable {o : Setup} {s : Session} {failed : Bool} {raw : String} {cursor : Cursor}

/-- A line reports one kind of message at most. -/
theorem eq_of_reports {k l : Kind} (hk : reports k raw = true) (hl : reports l raw = true) :
    k = l := by
  unfold reports at hk hl
  cases hm : decode raw with
  | error e => simp [hm] at hk
  | ok m =>
    simp only [hm, Bool.and_eq_true, beq_iff_eq] at hk hl
    exact hk.2.symm.trans hl.2

theorem reported_cons_of_ends {lines : List String} (h : reports .sessionEnded raw = true) :
    reported failed (raw :: lines) =
      if failed then .failure "one or more projects failed"
      else
        match lines.find? isLateError with
        | some late => .failure (Line.classify late).text
        | none => .success := by
  simp [reported, List.findIdx?_cons, h]

theorem reported_cons {lines : List String} (h : reports .sessionEnded raw = false) :
    reported failed (raw :: lines) = reported (failed || reports .projectFailed raw) lines := by
  unfold reported
  rw [List.findIdx?_cons, h]
  cases lines.findIdx? (reports .sessionEnded) with
  | none => rfl
  | some i => simp [Bool.or_assoc]

theorem reports_of_not_isSpyLine {kind : Kind} (h : isSpyLine raw = false) :
    reports kind raw = false := by
  simp [reports, h]

theorem isSpyLine_of_reports {kind : Kind} (h : reports kind raw = true) :
    isSpyLine raw = true := by
  rw [reports, Bool.and_eq_true] at h
  exact h.1

theorem processLine_marks {t : Tracker} (ho : o.BuiltIn) (now : Nat)
    (hspy : isSpyLine raw = true) :
    (t.processLine o.toOptions raw now).value.2.context.marks =
      (t.context.ended || reports .sessionEnded raw,
        t.context.failed || reports .projectFailed raw) ∧
    rootOutcomes (t.processLine o.toOptions raw now).events =
      if reports .sessionEnded raw then
        [if t.context.failed then .failure "one or more projects failed" else .success]
      else [] := by
  unfold Tracker.processLine reports
  cases hm : decode raw with
  | error e => simp [Context.marks]
  | ok m =>
    obtain ⟨hmarks, hout⟩ := Tracker.apply_marks t m now ho
    simp [hspy, hmarks, hout]

@[simp] theorem phase_finalize (s : Session) : s.finalize.value.phase = s.phase := by
  unfold finalize
  split <;> rfl

theorem rootOutcomes_finalize (hm : ∀ m ∈ s.matchers, m.IsBuiltIn) :
    rootOutcomes s.finalize.events = [] :=
  rootOutcomes_of_messages (messages_finalize hm)

theorem rootOutcomes_plainLine (hm : ∀ m ∈ s.matchers, m.IsBuiltIn) :
    rootOutcomes (s.plainLine o raw cursor).events = [] := by
  have hforward : rootOutcomes (forward s.context raw).events = [] := by
    refine rootOutcomes_eq_nil fun e he => ?_
    obtain ⟨i, -, rfl⟩ := List.mem_map.1 he
    rfl
  have hoffer := rootOutcomes_of_messages (LineMatcher.messages_offer hm s.context
    s.context.currentId (Line.classify raw) cursor)
  unfold plainLine
  split <;> simp only [Emits.events_bind, rootOutcomes_append, hforward, hoffer] <;>
    split <;> rfl

theorem Running.ticked (h : Running failed s) : Running failed s.ticked :=
  ⟨h.phase, h.marks, h.finished⟩

theorem Running.plainLine (h : Running failed s) :
    Running failed (s.plainLine o raw cursor).value.2.1 := by
  unfold Session.plainLine
  split <;> simp only [Emits.value_bind] <;> split <;> exact ⟨h.phase, h.marks, h.finished⟩

theorem Running.spyLine (h : Running failed s) (ho : o.BuiltIn) (hspy : isSpyLine raw = true)
    (hr : reports .sessionEnded raw = false) (now : Nat) :
    Running (failed || reports .projectFailed raw) (s.spyLine o raw now).value ∧
    rootOutcomes (s.spyLine o raw now).events = [] := by
  obtain ⟨hphase, hmarks, hfin⟩ := h
  obtain ⟨hline, hout⟩ := processLine_marks (t := s.tracker) ho now hspy
  have hended : s.tracker.context.ended = false := congrArg Prod.fst hmarks
  have hfailed : s.tracker.context.failed = failed := congrArg Prod.snd hmarks
  rw [hr, hended, hfailed] at hline
  rw [hr] at hout
  have hgoes : (s.tracker.processLine o.toOptions raw now).value.2.context.ended = false :=
    congrArg Prod.fst hline
  simp only [Session.spyLine, Emits.value_bind, Emits.events_bind, hgoes, rootOutcomes_append, hout]
  exact ⟨⟨hphase, hline, hfin⟩, rfl⟩

theorem Running.spyLine_ends (h : Running failed s) (ho : o.BuiltIn)
    (hm : ∀ m ∈ s.matchers, m.IsBuiltIn) (hspy : isSpyLine raw = true)
    (hr : reports .sessionEnded raw = true) (now : Nat) :
    Over failed (s.spyLine o raw now).value ∧
    rootOutcomes (s.spyLine o raw now).events =
      [if failed then .failure "one or more projects failed" else .success] := by
  obtain ⟨hphase, hmarks, hfin⟩ := h
  obtain ⟨hline, hout⟩ := processLine_marks (t := s.tracker) ho now hspy
  have hfailed : s.tracker.context.failed = failed := congrArg Prod.snd hmarks
  have hother : reports .projectFailed raw = false := by
    rw [← Bool.not_eq_true]
    intro hf
    cases eq_of_reports hr hf
  rw [hr, hother, hfailed, Bool.or_true, Bool.or_false] at hline
  rw [hr, hfailed] at hout
  have hends : (s.tracker.processLine o.toOptions raw now).value.2.context.ended = true :=
    congrArg Prod.fst hline
  have hfinal := rootOutcomes_finalize (s := { s with
    tracker := (s.tracker.processLine o.toOptions raw now).value.2, phase := .ended }) hm
  simp only [Session.spyLine, Emits.value_bind, Emits.events_bind, hends, rootOutcomes_append, hout,
    if_true]
  refine ⟨⟨?_, ?_⟩, ?_⟩
  · simp
  · simpa [context] using hline
  · simp [hfinal]

/-- A line of a running session that does not end it. -/
theorem Running.parseLine (h : Running failed s) (ho : o.BuiltIn)
    (hm : ∀ m ∈ s.matchers, m.IsBuiltIn) (cursor : Cursor) (hr : reports .sessionEnded raw = false) :
    Running (failed || reports .projectFailed raw) (s.parseLine o raw cursor).value.2.1 ∧
    rootOutcomes (s.parseLine o raw cursor).events = [] := by
  rcases parseLine_cases o s raw cursor with
    ⟨hphase, -⟩ | ⟨-, hspy, hline⟩ | ⟨-, hspy, -, hline⟩ | ⟨-, hspy, -, hline⟩
  · rw [h.phase] at hphase
    cases hphase
  · rw [hline, Emits.events_map, Emits.value_map]
    exact h.ticked.spyLine ho hspy hr (o.clock s.ticks)
  · rw [hline, reports_of_not_isSpyLine hspy, Bool.or_false]
    exact ⟨h.ticked, rfl⟩
  · rw [hline, reports_of_not_isSpyLine hspy, Bool.or_false]
    exact ⟨h.ticked.plainLine, rootOutcomes_plainLine hm⟩

/-- The line that ends a running session. -/
theorem Running.parseLine_ends (h : Running failed s) (ho : o.BuiltIn)
    (hm : ∀ m ∈ s.matchers, m.IsBuiltIn) (cursor : Cursor) (hr : reports .sessionEnded raw = true) :
    Over failed (s.parseLine o raw cursor).value.2.1 ∧
    rootOutcomes (s.parseLine o raw cursor).events =
      [if failed then .failure "one or more projects failed" else .success] := by
  have hspy := isSpyLine_of_reports hr
  rcases parseLine_cases o s raw cursor with
    ⟨hphase, -⟩ | ⟨-, -, hline⟩ | ⟨-, hno, -, -⟩ | ⟨-, hno, -, -⟩
  · rw [h.phase] at hphase
    cases hphase
  · rw [hline, Emits.events_map, Emits.value_map]
    exact h.ticked.spyLine_ends ho hm hspy hr (o.clock s.ticks)
  · rw [hspy] at hno
    cases hno
  · rw [hspy] at hno
    cases hno

theorem Over.lateLine (h : Over failed s) (o : Setup) (raw : String) (now : Nat) :
    Over (failed || isLateError raw) (s.lateLine o raw now).value ∧
    rootOutcomes (s.lateLine o raw now).events =
      if !failed && isLateError raw then [.failure (Line.classify raw).text] else [] := by
  obtain ⟨hphase, hmarks⟩ := h
  have hended : s.context.ended = true := congrArg Prod.fst hmarks
  have hfailed : s.context.failed = failed := congrArg Prod.snd hmarks
  have hcounts : (isSpyLine raw || s.context.failed || (Line.classify raw).level != some .error) =
      !(!failed && isLateError raw) := by
    rw [hfailed, isLateError]
    cases isSpyLine raw <;> cases failed <;> simp [bne]
  unfold Session.lateLine
  dsimp only
  rw [hcounts]
  cases failed with
  | true => exact ⟨⟨hphase, hmarks⟩, rfl⟩
  | false =>
    cases isLateError raw with
    | true => exact ⟨⟨hphase, congrArg (·, true) hended⟩, rfl⟩
    | false => exact ⟨⟨hphase, hmarks⟩, rfl⟩

/-- A line after the end of a session. -/
theorem Over.parseLine (h : Over failed s) (o : Setup) (raw : String) (cursor : Cursor) :
    Over (failed || isLateError raw) (s.parseLine o raw cursor).value.2.1 ∧
    rootOutcomes (s.parseLine o raw cursor).events =
      if !failed && isLateError raw then [.failure (Line.classify raw).text] else [] := by
  have hticked : Over failed s.ticked := ⟨h.phase, h.marks⟩
  rcases parseLine_cases o s raw cursor with
    ⟨-, hline⟩ | ⟨hphase, -⟩ | ⟨hphase, -⟩ | ⟨hphase, -⟩
  · rw [hline, Emits.events_map, Emits.value_map]
    exact hticked.lateLine o raw (o.clock s.ticks)
  all_goals
    rw [h.phase] at hphase
    cases hphase

/-- The end of the output finishes the root when nothing else did. -/
theorem rootOutcomes_finish (hm : ∀ m ∈ s.matchers, m.IsBuiltIn) (hfin : s.finished = false) :
    rootOutcomes (s.finish o).events = if s.context.ended then [] else [.unknown] := by
  obtain ⟨summary, hsummary, hes⟩ := events_finish (o := o) hm hfin
  have hdownloads : rootOutcomes ((Download.sorted s.tracker.downloads).map
      (·.finished (o.clock s.ticks) .unknown)) = [] :=
    Tracker.rootOutcomes_abandon _ _ .downloadUnresolved
  have hentries : rootOutcomes (s.context.liveReversed.map
      (·.finished (o.clock s.ticks) .unknown)) = [] := by
    refine rootOutcomes_eq_nil fun e he => ?_
    obtain ⟨x, -, rfl⟩ := List.mem_map.1 he
    rfl
  rw [hes, events_flush, rootOutcomes_append, rootOutcomes_append, rootOutcomes_append,
    rootOutcomes_of_messages hsummary, hdownloads, hentries]
  cases s.context.ended <;> rfl

theorem Running.finish (h : Running failed s) (hm : ∀ m ∈ s.matchers, m.IsBuiltIn) :
    rootOutcomes (s.finish o).events = [.unknown] := by
  have hended : s.context.ended = false := congrArg Prod.fst h.marks
  rw [rootOutcomes_finish hm h.finished, hended]
  rfl

theorem Over.finish (h : Over failed s) (hm : ∀ m ∈ s.matchers, m.IsBuiltIn) :
    rootOutcomes (s.finish o).events = [] := by
  have hended : s.context.ended = true := congrArg Prod.fst h.marks
  cases hfin : s.finished with
  | true => simp [Session.finish, hfin]
  | false => rw [rootOutcomes_finish hm hfin, if_pos hended]

theorem rootOutcomes_calls_cons (o : Setup) (s : Session) (raw : String) (cursor : Cursor)
    (ls : List (String × Cursor)) :
    rootOutcomes (s.calls o (lineCalls ((raw, cursor) :: ls) ++ [.finish])).events =
      rootOutcomes (s.parseLine o raw cursor).events ++
        rootOutcomes ((s.parseLine o raw cursor).value.2.1.calls o
          (lineCalls ls ++ [.finish])).events := by
  simp [lineCalls, call]

/-- After the end of a session only the first late error line counts, and none if the session
had failed. -/
theorem Over.rootOutcomes_calls (h : Over failed s) (hm : ∀ m ∈ s.matchers, m.IsBuiltIn)
    (ls : List (String × Cursor)) :
    rootOutcomes (s.calls o (lineCalls ls ++ [.finish])).events =
      if failed then []
      else (((ls.map (·.1)).find? isLateError).map
        fun raw => Outcome.failure (Line.classify raw).text).toList := by
  induction ls generalizing s failed with
  | nil =>
    have hfinish := h.finish (o := o) hm
    cases failed <;> simpa [lineCalls, call] using hfinish
  | cons l ls ih =>
    obtain ⟨raw, cursor⟩ := l
    obtain ⟨hnext, hout⟩ := h.parseLine o raw cursor
    -- a late error that counts sets the mark, after which no other one counts
    have hrest := ih hnext (isBuiltIn_call hm (.line raw cursor))
    rw [rootOutcomes_calls_cons, hrest, hout]
    cases failed <;> cases hlate : isLateError raw <;> simp [hlate]

/-- What the root of the tree finishes with last is what the lines report. -/
theorem Running.getLast?_calls (h : Running failed s) (ho : o.BuiltIn)
    (hm : ∀ m ∈ s.matchers, m.IsBuiltIn) (ls : List (String × Cursor)) :
    (rootOutcomes (s.calls o (lineCalls ls ++ [.finish])).events).getLast? =
      some (reported failed (ls.map (·.1))) := by
  induction ls generalizing s failed with
  | nil =>
    have hfinish := h.finish (o := o) hm
    simp [lineCalls, call, reported, hfinish]
  | cons l ls ih =>
    obtain ⟨raw, cursor⟩ := l
    have hm' := isBuiltIn_call (o := o) hm (.line raw cursor)
    cases hr : reports .sessionEnded raw with
    | true =>
      -- the end of the session decides, and late lines can only turn a success into a failure
      obtain ⟨hnext, hout⟩ := h.parseLine_ends ho hm cursor hr
      have hrest := hnext.rootOutcomes_calls (o := o) hm' ls
      rw [rootOutcomes_calls_cons, hout, hrest, List.map_cons, reported_cons_of_ends hr]
      cases failed with
      | true => rfl
      | false => cases (ls.map (·.1)).find? isLateError <;> rfl
    | false =>
      obtain ⟨hnext, hout⟩ := h.parseLine ho hm cursor hr
      rw [rootOutcomes_calls_cons, hout, List.nil_append, List.map_cons, reported_cons hr]
      exact ih hnext hm'

/-! ## Top theorems -/

/-- The result of a run, as its summary has it, is what the parsed lines report; and the verdict
on the build is a failure exactly when that result is one, or when it is unknown and strictness
is asked for. -/
theorem run_result (settings : Settings) (clock : Nat → Nat) (n : Nat) (lines : List String) :
    let o := Setup.ofSettings settings clock
    let s := start settings (.fresh n)
    let summary := Summary.ofEvents (s.run o lines).events
    let result := reported false ((s.handed o (.ofLines lines)).map (·.1))
    summary.result = some result ∧
    ∀ strict, (summary.verdict strict).isSome = true ↔
      (∃ message, result = .failure message) ∨ (strict = true ∧ result = .unknown) := by
  intro o s summary result
  have hresult : summary.result = some result := by
    have hrun : Running false s := ⟨rfl, rfl, rfl⟩
    have hlast := hrun.getLast?_calls (Setup.builtIn_ofSettings settings clock)
      (builtIn_start settings (.fresh n)) (s.handed o (.ofLines lines))
    rw [← runCalls, ← run_eq_calls] at hlast
    rw [← hlast]
    exact Summary.result_ofEvents _
  refine ⟨hresult, fun strict => ?_⟩
  rw [Summary.verdict, hresult]
  cases result <;> cases strict <;> simp

/-- A build that reported success and then an error. -/
example : reported false ["[IJ]-1-[IJ]-SessionEnded", "[INFO] done", "[ERROR] late"] =
    .failure "late" := by cbv

end BuildTree.Session
