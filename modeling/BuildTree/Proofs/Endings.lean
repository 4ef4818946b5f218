import BuildTree.Proofs.Lifecycle
import BuildTree.Proofs.Listeners
import BuildTree.Proofs.Verdict

/-!
# How sessions end

Whatever calls are made, and in whatever order, a session ends once: by the message of the build
or by the end of the output, whichever comes first (`Stage`).

    running    nothing finished the root, and no matcher was told
    closed     the root finished, once or a second time with a late error; every matcher was told

    session after more calls     closed if it was, or if a call ends it            (Stage.calls)
    matchers after a call        told by the one that ends the session         (Stage.tellsOnce)
    finish after finish          nothing at all                             (finish_of_finished)
-/

namespace BuildTree.Session

open Execution Spy Events

/-! ## Algorithm -/

/-- Whether a call ends the session it is made on: the end of the output does, and to a running
session the message that it ended. -/
def ends (s : Session) : Call → Bool
  | .line raw _ => s.phase == .active && reports .sessionEnded raw
  | .finish => true

/-- Whether one of some calls ends the session. -/
def endedBy (o : Setup) (s : Session) : List Call → Bool
  | [] => false
  | c :: cs => s.ends c || endedBy o (s.call o c).value cs

/-- What a call makes of the matchers of a session that is over already, or is not.  The call that
ends the session tells them all, a line before it is offered to them at most, and a call after it
leaves them alone. -/
def TellsOnce (o : Setup) (s : Session) (past : Bool) (c : Call) : Prop :=
  let x := s.call o c
  let told := LineMatcher.finalizeAll s.context.sessionId s.matchers
  if past then x.value.matchers = s.matchers
  else if s.ends c then x.value.matchers = told.value ∧ told.events <:+: x.events
  else x.value.matchers = s.matchers ∨
    ∃ raw cursor, c = .line raw cursor ∧ x.value.matchers = (s.offerLine raw cursor).value.2.1

/-- What the root finished with, in a session that is over, and failed or did not. -/
inductive Settled : (failed : Bool) → List Outcome → Prop
  | unknown (failed) : Settled failed [.unknown]
  | success : Settled false [.success]
  | failure (text) : Settled true [.failure text]
  | late {a} (ha : a = .success ∨ a = .unknown) (text) : Settled true [a, .failure text]

/-- The session is over, by the message of the build or by the end of the output, and every matcher
was told. -/
structure Closed (failed : Bool) (s : Session) : Prop where
  phase : s.phase = .ended
  told : s.finalized = true
  reason : s.context.ended = true ∨ s.finished = true
  failed : s.context.failed = failed

/-- How far a session is, with what the root finished with so far. -/
inductive Stage : Session → List Outcome → (past : Bool) → Prop
  | running {s failed} (h : Running failed s) (hf : s.finalized = false) : Stage s [] false
  | closed {s failed outcomes} (h : Closed failed s) (ho : Settled failed outcomes) :
      Stage s outcomes true

/-! ## Lemmas -/

variable {o : Setup} {s : Session} {failed past : Bool} {outcomes : List Outcome} {raw : String}
  {cursor : Cursor} {now : Nat}

/-- A line of the spy channel tells the matchers exactly if the session has ended after it. -/
theorem finalized_spyLine :
    (s.spyLine o raw now).value.finalized =
      (s.finalized || (s.spyLine o raw now).value.context.ended) := by
  rw [spyLine_eq, Emits.value_bind, heed]
  split
  · next hended =>
    have hcontext : (Emits.note .sessionEnded >>= fun _ => finalize { s with
        tracker := (s.tracker.processLine o.toOptions raw now).value.2,
        phase := .ended }).value.context.ended = true := by
      simpa [context] using hended
    rw [hcontext, Bool.or_true]
    simp
  · next hended =>
    have hended : (Session.context { s with
        tracker := (s.tracker.processLine o.toOptions raw now).value.2 }).ended = false := by
      simpa using hended
    rw [Emits.value_pure, hended, Bool.or_false]

theorem Running.finalized_parseLine (h : Running failed s) (raw : String) (cursor : Cursor) :
    (s.parseLine o raw cursor).value.2.1.finalized =
      (s.finalized || (s.parseLine o raw cursor).value.2.1.context.ended) := by
  have hended : s.context.ended = false := congrArg Prod.fst h.marks
  rcases parseLine_cases o s raw cursor with
    ⟨hphase, -⟩ | ⟨-, -, hl⟩ | ⟨-, -, -, hl⟩ | ⟨-, -, -, hl⟩
  · rw [h.phase] at hphase
    cases hphase
  · rw [hl]
    exact finalized_spyLine (s := s.ticked)
  · rw [hl]
    show s.finalized = (s.finalized || s.context.ended)
    rw [hended, Bool.or_false]
  · rw [hl, value_plainLine]
    show s.finalized = (s.finalized || s.context.ended)
    rw [hended, Bool.or_false]

theorem finished_finish (o : Setup) (s : Session) : (s.finish o).value.finished = true := by
  by_cases hfin : s.finished = true
  · rwa [finish_of_finished hfin]
  · rw [finish_eq (by simpa using hfin), Emits.value_bind, value_flush]
    exact finished_finalize { s with finished := true, ticks := s.ticks + 1 }

theorem marks_finish (o : Setup) (s : Session) :
    (s.finish o).value.context.marks = s.context.marks := by
  by_cases hfin : s.finished = true
  · rw [finish_of_finished hfin]
    rfl
  · rw [context, tracker_finish (by simpa using hfin)]
    exact Context.marks_foldl_complete s.context _

/-! ## One call -/

theorem Running.finish_closed (h : Running failed s) (o : Setup) :
    Closed failed (s.finish o).value := by
  have hmarks := (marks_finish o s).trans h.marks
  refine ⟨?_, ?_, Or.inr (finished_finish o s), congrArg Prod.snd hmarks⟩
  · rw [finish_eq h.finished, Emits.value_bind, value_flush]
  · rw [finish_eq h.finished, Emits.value_bind, value_flush]
    simp

theorem Closed.parseLine (h : Closed failed s) (o : Setup) (raw : String) (cursor : Cursor) :
    Closed (failed || isLateError raw) (s.parseLine o raw cursor).value.2.1 ∧
    rootOutcomes (s.parseLine o raw cursor).events =
      if !failed && isLateError raw then [.failure (Line.classify raw).text] else [] := by
  obtain ⟨hphase, htold, hreason, hfailed⟩ := h
  have hcounts : s.ticked.countsLate raw = (!failed && isLateError raw) := by
    rw [countsLate, isLateError, ← hfailed, Bool.and_assoc]
    rfl
  rw [parseLine_late hphase, Emits.events_map, Emits.value_map, lateLine_eq, hcounts]
  cases failed with
  | true => exact ⟨⟨hphase, htold, hreason, hfailed⟩, rfl⟩
  | false =>
    cases isLateError raw with
    | true => exact ⟨⟨hphase, htold, hreason, rfl⟩, rfl⟩
    | false => exact ⟨⟨hphase, htold, hreason, hfailed⟩, rfl⟩

theorem Closed.finish (h : Closed failed s) (hm : ∀ m ∈ s.matchers, m.IsBuiltIn) :
    Closed failed (s.finish o).value ∧ rootOutcomes (s.finish o).events = [] := by
  by_cases hfin : s.finished = true
  · rw [finish_of_finished hfin]
    exact ⟨h, rfl⟩
  · have hfin : s.finished = false := by simpa using hfin
    have hended : s.context.ended = true := by
      rcases h.reason with hended | hfin'
      · exact hended
      · rw [hfin] at hfin'
        cases hfin'
    have hmarks := marks_finish o s
    refine ⟨⟨?_, ?_, Or.inr (finished_finish o s), ?_⟩, ?_⟩
    · rw [finish_eq hfin, Emits.value_bind, value_flush]
    · rw [finish_eq hfin, Emits.value_bind, value_flush]
      simp
    · exact (congrArg Prod.snd hmarks).trans h.failed
    · rw [rootOutcomes_finish hm hfin, if_pos hended]

/-- A session that did not fail has finished its root once. -/
theorem Settled.of_not_failed (h : Settled false outcomes) :
    ∃ a, (a = .success ∨ a = .unknown) ∧ outcomes = [a] := by
  cases h with
  | unknown => exact ⟨_, Or.inr rfl, rfl⟩
  | success => exact ⟨_, Or.inl rfl, rfl⟩

theorem Settled.lateError (h : Settled false outcomes) (text : String) :
    Settled true (outcomes ++ [.failure text]) := by
  obtain ⟨a, ha, rfl⟩ := h.of_not_failed
  exact .late ha text

theorem Stage.call (h : Stage s outcomes past) (hm : ∀ m ∈ s.matchers, m.IsBuiltIn)
    (ho : o.BuiltIn) (c : Call) :
    Stage (s.call o c).value (outcomes ++ rootOutcomes (s.call o c).events) (past || s.ends c) := by
  cases h with
  | @running failed h hf =>
    cases c with
    | finish =>
      rw [Session.call, h.finish hm]
      exact .closed (h.finish_closed o) (.unknown failed)
    | line raw cursor =>
      simp only [Session.call, Emits.value_map, Emits.events_map]
      have htold := h.finalized_parseLine (o := o) raw cursor
      cases hr : reports .sessionEnded raw with
      | true =>
        obtain ⟨hover, hout⟩ := h.parseLine_ends ho hm cursor hr
        have hended := congrArg Prod.fst hover.marks
        have hends : s.ends (.line raw cursor) = true := by simp [ends, h.phase, hr]
        rw [hout, hends]
        have hdone : (s.parseLine o raw cursor).value.2.1.finalized = true := by
          rw [htold]
          exact (congrArg (s.finalized || ·) hended).trans (Bool.or_true _)
        have hclosed : Closed failed (s.parseLine o raw cursor).value.2.1 :=
          ⟨hover.phase, hdone, Or.inl hended, congrArg Prod.snd hover.marks⟩
        refine .closed hclosed ?_
        cases failed with
        | true => exact .failure _
        | false => exact .success
      | false =>
        obtain ⟨hrun, hout⟩ := h.parseLine ho hm cursor hr
        have hended := congrArg Prod.fst hrun.marks
        have hends : s.ends (.line raw cursor) = false := by simp [ends, hr]
        rw [hout, hends]
        refine .running hrun ?_
        rw [htold, hf]
        exact hended
  | @closed failed outcomes h hset =>
    cases c with
    | finish =>
      obtain ⟨hclosed, hout⟩ := h.finish (o := o) hm
      rw [Session.call, hout, List.append_nil]
      exact .closed hclosed hset
    | line raw cursor =>
      simp only [Session.call, Emits.value_map, Emits.events_map]
      obtain ⟨hclosed, hout⟩ := h.parseLine o raw cursor
      rw [hout]
      cases failed with
      | true => simpa using Stage.closed hclosed hset
      | false =>
        cases hlate : isLateError raw with
        | true =>
          rw [hlate] at hclosed
          exact .closed hclosed (hset.lateError _)
        | false =>
          rw [hlate] at hclosed
          simpa using Stage.closed hclosed hset

/-! ## Any calls -/

theorem Stage.calls (h : Stage s outcomes past) (hm : ∀ m ∈ s.matchers, m.IsBuiltIn)
    (ho : o.BuiltIn) (cs : List Call) :
    Stage (s.calls o cs).value (outcomes ++ rootOutcomes (s.calls o cs).events)
      (past || s.endedBy o cs) := by
  induction cs generalizing s outcomes past with
  | nil => simpa [endedBy] using h
  | cons c cs ih =>
    have hrest := ih (h.call hm ho c) (isBuiltIn_call hm c)
    rw [value_calls_cons, events_calls_cons, rootOutcomes_append, endedBy, ← List.append_assoc,
      ← Bool.or_assoc]
    exact hrest

theorem Stage.finalized (h : Stage s outcomes past) : s.finalized = past := by
  cases h with
  | running h hf => exact hf
  | closed h ho => exact h.told

theorem Stage.phase_eq_ended_iff (h : Stage s outcomes past) :
    s.phase = .ended ↔ past = true := by
  cases h with
  | running h hf => simp [h.phase]
  | closed h ho => simp [h.phase]

theorem Stage.outcomes_le_two (h : Stage s outcomes past) :
    outcomes = [] ∨ (∃ a, outcomes = [a]) ∨
      ∃ a text, (a = .success ∨ a = .unknown) ∧ outcomes = [a, .failure text] := by
  cases h with
  | running h hf => exact Or.inl rfl
  | closed h ho =>
    cases ho with
    | late ha text => exact Or.inr (Or.inr ⟨_, text, ha, rfl⟩)
    | _ => exact Or.inr (Or.inl ⟨_, rfl⟩)

/-! ## The matchers -/

theorem told_finalize (hf : s.finalized = false) :
    s.finalize.value.matchers = (LineMatcher.finalizeAll s.context.sessionId s.matchers).value ∧
    s.finalize.events = (LineMatcher.finalizeAll s.context.sessionId s.matchers).events := by
  rw [finalize, if_neg (by simp [hf])]
  exact ⟨rfl, List.append_nil _⟩

/-- The line that ends a session is applied, and then the matchers are told. -/
theorem Running.tells_line (h : Running failed s) (hf : s.finalized = false) (hs : s.Sound o)
    (ho : o.BuiltIn) (cursor : Cursor) (hr : reports .sessionEnded raw = true) :
    let x := s.parseLine o raw cursor
    let told := LineMatcher.finalizeAll s.context.sessionId s.matchers
    x.value.2.1.matchers = told.value ∧ told.events <:+: x.events := by
  intro x told
  have hspy := isSpyLine_of_reports hr
  let line := s.tracker.processLine o.toOptions raw (o.clock s.ticks)
  have hended : line.value.2.context.ended = true := by
    have hmarks := (processLine_marks (t := s.tracker) ho (o.clock s.ticks) hspy).1
    rw [hr, Bool.or_true] at hmarks
    exact congrArg Prod.fst hmarks
  have hid : line.value.2.context.sessionId = s.context.sessionId :=
    sessionId_processLine hs ho raw (o.clock s.ticks)
  obtain ⟨hmatchers, hevents⟩ := told_finalize
    (s := { s.ticked with tracker := line.value.2, phase := .ended }) hf
  rw [context, hid] at hmatchers hevents
  have hheed := heed_of_ended (s := { s.ticked with tracker := line.value.2 }) hended
  have hx : x = (fun s => (true, s, cursor)) <$> (line >>= fun p =>
      { s.ticked with tracker := p.2 }.heed) := parseLine_spy h.phase hspy
  rw [hx, Emits.value_map, Emits.events_map, Emits.value_bind, Emits.events_bind, hheed]
  exact ⟨hmatchers, hevents ▸ (List.suffix_append _ _).isInfix⟩

theorem Running.tells_finish (h : Running failed s) (hf : s.finalized = false) (o : Setup) :
    let told := LineMatcher.finalizeAll s.context.sessionId s.matchers
    (s.finish o).value.matchers = told.value ∧ told.events <:+: (s.finish o).events := by
  obtain ⟨hmatchers, hevents⟩ := told_finalize
    (s := { s with finished := true, ticks := s.ticks + 1 }) hf
  rw [finish_eq h.finished, Emits.value_bind, Emits.events_bind, value_flush]
  exact ⟨hmatchers, hevents ▸ (List.prefix_append _ _).isInfix⟩

/-- A line that does not end a session tells the matchers nothing. -/
theorem Running.matchers_line (h : Running failed s) (ho : o.BuiltIn) (cursor : Cursor)
    (hr : reports .sessionEnded raw = false) :
    (s.parseLine o raw cursor).value.2.1.matchers = s.matchers ∨
    (s.parseLine o raw cursor).value.2.1.matchers = (s.offerLine raw cursor).value.2.1 := by
  rcases parseLine_cases o s raw cursor with
    ⟨hphase, -⟩ | ⟨-, hspy, hl⟩ | ⟨-, -, -, hl⟩ | ⟨-, -, -, hl⟩
  · rw [h.phase] at hphase
    cases hphase
  · left
    have hmarks := (processLine_marks (t := s.tracker) ho (o.clock s.ticks) hspy).1
    rw [hr, show s.tracker.context.ended = false from congrArg Prod.fst h.marks] at hmarks
    have hheed := heed_of_goes (s := { s.ticked with
      tracker := (s.tracker.processLine o.toOptions raw (o.clock s.ticks)).value.2 })
      (congrArg Prod.fst hmarks)
    rw [hl, Emits.value_map, spyLine_eq, Emits.value_bind]
    exact congrArg (fun x : Emits Session => x.value.matchers) hheed
  · exact Or.inl (by rw [hl]; rfl)
  · exact Or.inr (by rw [hl, value_plainLine]; rfl)

theorem Closed.matchers_call (h : Closed failed s) (o : Setup) (c : Call) :
    (s.call o c).value.matchers = s.matchers := by
  cases c with
  | line raw cursor =>
    rw [call, Emits.value_map, Session.parseLine_late h.phase, Emits.value_map, lateLine_eq]
    split <;> rfl
  | finish =>
    rw [call]
    by_cases hfin : s.finished = true
    · rw [finish_of_finished hfin]
      rfl
    · rw [finish_eq (by simpa using hfin), Emits.value_bind, value_flush, finalize, if_pos h.told]
      rfl

theorem Stage.tellsOnce (h : Stage s outcomes past) (hs : s.Sound o) (ho : o.BuiltIn) (c : Call) :
    TellsOnce o s past c := by
  cases h with
  | closed h _ => exact h.matchers_call o c
  | running h hf =>
    cases c with
    | finish => exact h.tells_finish hf o
    | line raw cursor =>
      cases hr : reports .sessionEnded raw with
      | true =>
        have hends : s.ends (.line raw cursor) = true := by simp [ends, h.phase, hr]
        simp only [TellsOnce, hends, Bool.false_eq_true, if_false, if_true]
        rw [Session.call, Emits.value_map, Emits.events_map]
        exact h.tells_line hf hs ho cursor hr
      | false =>
        have hends : s.ends (.line raw cursor) = false := by simp [ends, hr]
        simp only [TellsOnce, hends, Bool.false_eq_true, if_false]
        exact (h.matchers_line ho cursor hr).imp_right fun hm => ⟨raw, cursor, rfl, hm⟩

/-- A line after the end emits nothing, but for the first late error of a session that had not
failed. -/
theorem Stage.parseLine_late (h : Stage s outcomes past) (hphase : s.phase = .ended)
    (o : Setup) (raw : String) (cursor : Cursor) :
    (s.parseLine o raw cursor).value.1 = false ∧
    ((s.parseLine o raw cursor).events = [] ∨
      ∃ a time text, (a = .success ∨ a = .unknown) ∧ outcomes = [a] ∧
        (s.parseLine o raw cursor).events =
          [.finished s.context.sessionId none time o.sessionName (.failure text)]) := by
  cases h with
  | running h hf =>
    rw [h.phase] at hphase
    cases hphase
  | @closed failed outcomes h ho =>
    rw [Session.parseLine_late hphase, lateLine_eq]
    refine ⟨rfl, ?_⟩
    split
    · next hcounts =>
      have hfailed : failed = false := by
        rw [← h.failed]
        simp only [countsLate, Bool.and_eq_true, Bool.not_eq_true'] at hcounts
        exact hcounts.1.1
      subst hfailed
      obtain ⟨a, ha, houtcomes⟩ := ho.of_not_failed
      exact Or.inr ⟨a, _, _, ha, houtcomes, rfl⟩
    · exact Or.inl rfl

theorem stage_start (settings : Settings) (n : Nat) :
    Stage (start settings (.fresh n)) [] false := by
  have hrunning : Running false (start settings (.fresh n)) := ⟨rfl, rfl, rfl⟩
  exact .running hrunning rfl

/-- Nothing but a finish of the root carries the id of the session. -/
theorem root_of_session_move {p : Tracker.Options} {K : Entry → Prop} {t t' : Tracker}
    {fs : List Event} (hv : t.Valid p) (h : Tracker.Move p K t fs t') :
    ∀ e ∈ fs, e.id? = some t.context.sessionId → e.rootOutcome?.isSome = true := by
  have hentry : ∀ x ∈ t.context.live, x.id ≠ t.context.sessionId :=
    fun _ => hv.numbered.id_ne_sessionId
  intro e he hid
  cases h with
  | starts kind thread name parent now hp hk =>
    rw [List.mem_singleton.1 he] at hid
    cases hid
  | restarts now hx =>
    rw [List.mem_singleton.1 he] at hid
    exact absurd (Option.some.inj hid) (hentry _ hx)
  | finishes now outcome hx hd =>
    rw [List.mem_singleton.1 he] at hid
    exact absurd (Option.some.inj hid) (hentry _ hx)
  | fetches now hx hkind hname hnode hd =>
    rw [List.mem_singleton.1 he] at hid
    cases hid
  | fetched now outcome hd =>
    rw [List.mem_singleton.1 he] at hid
    cases hid
  | remarks h =>
    rw [List.mem_singleton.1 he] at hid ⊢
    cases h with
    | sessionFinished now name outcome => rfl
    | _ => cases hid
  | marks c hs hn hl => cases he

theorem root_of_session_calls (settings : Settings) (clock : Nat → Nat) (n : Nat) (cs : List Call) :
    ∀ e ∈ ((start settings (.fresh n)).calls (.ofSettings settings clock) cs).events,
      e.id? = some (.session n) → e.rootOutcome?.isSome = true := by
  have hfresh : Told (Setup.ofSettings settings clock).toOptions n [] (.fresh n) :=
    told_calls settings clock n []
  refine (calls_keep (K := fun _ => True) settings clock n cs (fun _ _ _ => trivial)
    (I := fun es t => Told (Setup.ofSettings settings clock).toOptions n es t ∧
      ∀ e ∈ es, e.id? = some (.session n) → e.rootOutcome?.isSome = true)
    ⟨hfresh, fun _ he => absurd he List.not_mem_nil⟩ fun {es t fs t'} h hm => ?_).2
  obtain ⟨htold, hes⟩ := h
  refine ⟨htold.move hm, fun e he hid => ?_⟩
  rcases List.mem_append.1 he with he | he
  · exact hes e he hid
  · refine root_of_session_move htold.valid hm e he ?_
    rw [hid, Context.sessionId, htold.session]

theorem finished_call (h : s.finished = true) (c : Call) : (s.call o c).value.finished = true := by
  cases c with
  | line raw cursor => exact (finished_parseLine o s raw cursor).trans h
  | finish => exact finished_finish o s

theorem finished_calls (h : s.finished = true) (cs : List Call) :
    (s.calls o cs).value.finished = true := by
  induction cs generalizing s with
  | nil => exact h
  | cons c cs ih => exact ih (finished_call h c)

theorem finished_of_mem {cs : List Call} (h : .finish ∈ cs) :
    (s.calls o cs).value.finished = true := by
  induction cs generalizing s with
  | nil => cases h
  | cons c cs ih =>
    rcases List.mem_cons.1 h with rfl | h
    · exact finished_calls (finished_finish o s) cs
    · exact ih h

/-! ## Top theorems -/

/-- Calls in any order end a session once.  It stays ended; a listener anywhere among the matchers
is told exactly if a call ended it, and then once; one more call tells the matchers that are there
if it ends the session, and else does not; its root finishes twice at most, and then with a late error the second
time; a line after the end emits nothing but that; and handling the end of the output a second time
is nothing. -/
theorem calls_end_once (settings : Settings) (clock : Nat → Nat) (n : Nat) (cs : List Call) :
    let o := Setup.ofSettings settings clock
    let s := start settings (.fresh n)
    let x := s.calls o cs
    (x.value.phase = .ended → ∀ ds, (x.value.calls o ds).value.phase = .ended) ∧
    (∀ tell ks, LineMatcher.Attended tell s.matchers ks →
      let y := { s with matchers := ks }.calls o cs
      if s.endedBy o cs then Inserted (tell (.session n)).events x.events y.events
      else y.events = x.events) ∧
    (∀ c, TellsOnce o x.value (s.endedBy o cs) c) ∧
    (rootOutcomes x.events = [] ∨ (∃ a, rootOutcomes x.events = [a]) ∨
      ∃ a text, (a = .success ∨ a = .unknown) ∧ rootOutcomes x.events = [a, .failure text]) ∧
    (∀ e ∈ x.events, e.id? = some (.session n) → e.rootOutcome?.isSome = true) ∧
    (x.value.phase = .ended → ∀ raw cursor,
      let y := x.value.parseLine o raw cursor
      y.value.1 = false ∧ (y.events = [] ∨ ∃ a time text, (a = .success ∨ a = .unknown) ∧
        rootOutcomes x.events = [a] ∧
        y.events = [.finished (.session n) none time settings.sessionName (.failure text)])) ∧
    (.finish ∈ cs → x.value.finish o = pure x.value) := by
  intro o s x
  have ho := Setup.builtIn_ofSettings settings clock
  have hm := builtIn_start settings (.fresh n)
  have hsound := sound_start settings o n
  have hstage := (stage_start settings n).calls hm ho cs
  rw [List.nil_append, Bool.false_or] at hstage
  have hmx := (hsound.calls ho cs).matchers
  refine ⟨fun hphase ds => ?_, fun tell ks hks => ?_, hstage.tellsOnce (hsound.calls ho cs) ho,
    hstage.outcomes_le_two, root_of_session_calls settings clock n cs, fun hphase raw cursor => ?_,
    fun hmem => finish_of_finished (finished_of_mem hmem)⟩
  · have hover := hstage.phase_eq_ended_iff.1 hphase
    have hmore := hstage.calls hmx ho ds
    rw [hover, Bool.true_or] at hmore
    exact hmore.phase_eq_ended_iff.2 rfl
  · have hover : Overheard tell s { s with matchers := ks } := ⟨ks, hks, rfl⟩
    have hheard := heard_calls hover hsound ho (i := .session n) rfl cs
    split
    · next hends => exact hheard.once (by rw [hstage.finalized, hends]; simp [s, start])
    · next hends => exact hheard.still (by rw [hstage.finalized]; simpa [s, start] using hends)
  · have hid : x.value.context.sessionId = .session n := by
      rw [Context.sessionId]
      exact congrArg EventId.session (told_calls settings clock n cs).session
    have hlate := hstage.parseLine_late hphase o raw cursor
    rw [hid] at hlate
    exact hlate

end BuildTree.Session
