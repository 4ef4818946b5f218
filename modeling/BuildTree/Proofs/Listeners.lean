import BuildTree.Proofs.Steps

/-!
# Listeners

A listener is a matcher of the host that takes no lines and only says something when it is told
that the session is over.  Put in anywhere among the matchers it shows when they are told: the
session behaves as without it, and what it says stands in the events wherever that happens.

    calls that do not tell the matchers    the same events            (heard_calls)
    calls that tell them                   the same events, with what the listener says put in once
-/

namespace BuildTree

open Execution Spy

/-! ## Algorithm -/

/-- A matcher that takes no lines, and says something when the session is over. -/
def LineRule.listener (tell : EventId → Emits Unit) : LineRule where
  supports _ := false
  tryConsume _ _ _ cursor := pure (false, cursor)
  finalize := tell
  size_le _ _ _ _ := Nat.le_refl _

/-- The second list of matchers is the first with a listener put in somewhere. -/
inductive LineMatcher.Attended (tell : EventId → Emits Unit) :
    List LineMatcher → List LineMatcher → Prop
  | here (ms) : Attended tell ms (.rule (.listener tell) :: ms)
  | later (m) {ms ks} (h : Attended tell ms ks) : Attended tell (m :: ms) (m :: ks)

/-- The second list of events is the first with others put in at one place. -/
def Events.Inserted (told es fs : List Event) : Prop :=
  ∃ pre post, es = pre ++ post ∧ fs = pre ++ told ++ post

namespace Session

/-- The second session is the first with a listener among its matchers. -/
def Overheard (tell : EventId → Emits Unit) (s s' : Session) : Prop :=
  ∃ ks, LineMatcher.Attended tell s.matchers ks ∧ s' = { s with matchers := ks }

/-- Two steps, without and with a listener, from sessions whose matchers were told already or were
not: the listener is heard if the step tells them, and then once. -/
structure Heard (tell : EventId → Emits Unit) (told : List Event) (already : Bool)
    (x y : Emits Session) : Prop where
  value : Overheard tell x.value y.value
  still : x.value.finalized = already → y.events = x.events
  once : x.value.finalized ≠ already → Events.Inserted told x.events y.events

end Session

/-! ## Lemmas -/

open Events

section
variable {told es fs gs : List Event}

theorem Events.Inserted.append_right (h : Inserted told es fs) (gs : List Event) :
    Inserted told (es ++ gs) (fs ++ gs) := by
  obtain ⟨pre, post, rfl, rfl⟩ := h
  exact ⟨pre, post ++ gs, by simp, by simp⟩

theorem Events.Inserted.append_left (h : Inserted told es fs) (gs : List Event) :
    Inserted told (gs ++ es) (gs ++ fs) := by
  obtain ⟨pre, post, rfl, rfl⟩ := h
  exact ⟨gs ++ pre, post, by simp, by simp⟩

end

namespace LineMatcher

variable {tell : EventId → Emits Unit} {ms ks : List LineMatcher}

/-- A listener does not change what comes of a line. -/
theorem Attended.offer (h : Attended tell ms ks) (context : Context) (parent : EventId)
    (line : Line) (cursor : Cursor) :
    (offer context parent line cursor ks).events = (offer context parent line cursor ms).events ∧
    (offer context parent line cursor ks).value.1 = (offer context parent line cursor ms).value.1 ∧
    (offer context parent line cursor ks).value.2.2 =
      (offer context parent line cursor ms).value.2.2 ∧
    Attended tell (offer context parent line cursor ms).value.2.1
      (offer context parent line cursor ks).value.2.1 := by
  induction h generalizing cursor with
  | here ms =>
    have hlistener : (rule (.listener tell)).supports line.level = false := rfl
    rw [LineMatcher.offer, if_neg (by simp [hlistener])]
    exact ⟨by simp, rfl, rfl, .here _⟩
  | @later m ms ks h ih =>
    rw [LineMatcher.offer, LineMatcher.offer]
    split
    · obtain ⟨hes, htaken, hcursor, hms⟩ :=
        ih (m.tryConsume context parent line cursor).value.2.2
      simp only [Emits.events_bind, Emits.value_bind]
      split
      · exact ⟨rfl, rfl, rfl, .later _ h⟩
      · exact ⟨by simp [hes], htaken, hcursor, .later _ hms⟩
    · obtain ⟨hes, htaken, hcursor, hms⟩ := ih cursor
      exact ⟨by simp [hes], htaken, hcursor, .later _ hms⟩

/-- A listener among the matchers is told once. -/
theorem Attended.finalizeAll (h : Attended tell ms ks) (session : EventId) :
    Attended tell (finalizeAll session ms).value (finalizeAll session ks).value ∧
    Inserted (tell session).events (finalizeAll session ms).events
      (finalizeAll session ks).events := by
  induction h with
  | here ms =>
    refine ⟨.here _, [], (LineMatcher.finalizeAll session ms).events, rfl, ?_⟩
    simp [LineMatcher.finalizeAll, finalize, LineRule.listener]
  | @later m ms ks h ih =>
    refine ⟨.later _ ih.1, ?_⟩
    simpa [LineMatcher.finalizeAll] using ih.2.append_left (m.finalize session).events

end LineMatcher

namespace Session

variable {tell : EventId → Emits Unit} {told : List Event} {already : Bool} {o : Setup}
  {s s' : Session} {x y : Emits Session}

theorem Heard.of_eq (hv : Overheard tell x.value y.value) (he : y.events = x.events)
    (hf : x.value.finalized = already) : Heard tell told already x y :=
  ⟨hv, fun _ => he, fun h => absurd hf h⟩

theorem Heard.bind {α : Type} (a : Emits α) {f g : α → Emits Session}
    (h : Heard tell told already (f a.value) (g a.value)) :
    Heard tell told already (a >>= f) (a >>= g) := by
  refine ⟨h.value, fun hf => ?_, fun hf => ?_⟩
  · rw [Emits.events_bind, Emits.events_bind, h.still hf]
  · exact (h.once hf).append_left a.events

/-- What comes after a step does not tell the matchers again. -/
theorem Heard.append (h : Heard tell told already x y) {f : Session → Emits Session}
    (hv : Overheard tell (f x.value).value (f y.value).value)
    (hf : (f x.value).value.finalized = x.value.finalized)
    (he : (f y.value).events = (f x.value).events) :
    Heard tell told already (x >>= f) (y >>= f) := by
  refine ⟨hv, fun h' => ?_, fun h' => ?_⟩
  · rw [Emits.value_bind, hf] at h'
    rw [Emits.events_bind, Emits.events_bind, h.still h', he]
  · rw [Emits.value_bind, hf] at h'
    rw [Emits.events_bind, Emits.events_bind, he]
    exact (h.once h').append_right _

/-! ## One step -/

@[simp] theorem finalized_finalize (s : Session) : s.finalize.value.finalized = true := by
  unfold finalize
  split
  · assumption
  · rfl

theorem heard_finalize (h : Overheard tell s s') {i : EventId} (hid : s.context.sessionId = i) :
    Heard tell (tell i).events s.finalized s.finalize s'.finalize := by
  obtain ⟨ks, hks, rfl⟩ := h
  unfold finalize
  split
  · exact .of_eq ⟨ks, hks, rfl⟩ rfl rfl
  · next hf =>
    obtain ⟨hms, hes⟩ := hks.finalizeAll s.context.sessionId
    refine ⟨⟨_, hms, rfl⟩, fun h => absurd h.symm hf, fun _ => ?_⟩
    rw [← hid]
    simpa [context] using hes

theorem heard_lateLine (h : Overheard tell s s') (raw : String) (now : Nat) :
    Heard tell told s.finalized (s.lateLine o raw now) (s'.lateLine o raw now) := by
  obtain ⟨ks, hks, rfl⟩ := h
  have hsame : { s with matchers := ks }.countsLate raw = s.countsLate raw := rfl
  rw [lateLine_eq, lateLine_eq, hsame]
  split
  · exact .of_eq ⟨ks, hks, rfl⟩ rfl rfl
  · exact .of_eq ⟨ks, hks, rfl⟩ rfl rfl

theorem heard_heed (h : Overheard tell s s') {i : EventId} (hid : s.context.sessionId = i) :
    Heard tell (tell i).events s.finalized s.heed s'.heed := by
  obtain ⟨ks, hks, rfl⟩ := h
  have hsame : { s with matchers := ks }.context = s.context := rfl
  rw [heed, heed, hsame]
  split
  · exact Heard.bind (Emits.note .sessionEnded)
      (heard_finalize (s := { s with phase := .ended }) ⟨ks, hks, rfl⟩ hid)
  · exact .of_eq ⟨ks, hks, rfl⟩ rfl rfl

theorem heard_plainLine (h : Overheard tell s s') (raw : String) (cursor : Cursor) :
    Heard tell told s.finalized ((·.2.1) <$> s.plainLine o raw cursor)
      ((·.2.1) <$> s'.plainLine o raw cursor) := by
  obtain ⟨ks, hks, rfl⟩ := h
  obtain ⟨hes, -, -, hms⟩ := hks.offer s.context s.context.currentId (Line.classify raw) cursor
  refine .of_eq ?_ ?_ ?_
  · rw [Emits.value_map, Emits.value_map, value_plainLine, value_plainLine]
    exact ⟨_, hms, rfl⟩
  · rw [Emits.events_map, Emits.events_map, events_plainLine, events_plainLine]
    exact congrArg _ hes
  · rw [Emits.value_map, value_plainLine]

theorem heard_finish (h : Overheard tell s s') {i : EventId} (hid : s.context.sessionId = i) :
    Heard tell (tell i).events s.finalized (s.finish o) (s'.finish o) := by
  obtain ⟨ks, hks, rfl⟩ := h
  by_cases hfin : s.finished = true
  · rw [finish_of_finished hfin, finish_of_finished (s := { s with matchers := ks }) hfin]
    exact .of_eq ⟨ks, hks, rfl⟩ rfl rfl
  · have hfin : s.finished = false := by simpa using hfin
    have hover : Overheard tell { s with finished := true, ticks := s.ticks + 1 }
        { s with matchers := ks, finished := true, ticks := s.ticks + 1 } := ⟨ks, hks, rfl⟩
    have hfinal := heard_finalize hover hid
    obtain ⟨ls, hls, hy⟩ := hfinal.value
    rw [finish_eq hfin, finish_eq (s := { s with matchers := ks }) hfin]
    refine hfinal.append ?_ ?_ ?_
    · rw [hy, value_flush, value_flush]
      exact ⟨ls, hls, rfl⟩
    · rw [value_flush]
    · rw [hy]
      exact events_flush_congr rfl

/-! ## Calls -/

theorem sessionId_processLine (hs : s.Sound o) (ho : o.BuiltIn) (raw : String) (now : Nat) :
    (s.tracker.processLine o.toOptions raw now).value.2.context.sessionId =
      s.context.sessionId := by
  have hmoves : Tracker.Moves o.toOptions (fun _ => True) s.tracker
      (s.tracker.processLine o.toOptions raw now).events
      (s.tracker.processLine o.toOptions raw now).value.2 :=
    Tracker.moves_processLine hs.tracker ho raw fun _ _ => trivial
  exact congrArg EventId.session hmoves.session

theorem heard_spyLine (h : Overheard tell s s') (hs : s.Sound o) (ho : o.BuiltIn) {i : EventId}
    (hid : s.context.sessionId = i) (raw : String) (now : Nat) :
    Heard tell (tell i).events s.finalized (s.spyLine o raw now) (s'.spyLine o raw now) := by
  obtain ⟨ks, hks, rfl⟩ := h
  have hover : Overheard tell
      { s with tracker := (s.tracker.processLine o.toOptions raw now).value.2 }
      { s with tracker := (s.tracker.processLine o.toOptions raw now).value.2, matchers := ks } :=
    ⟨ks, hks, rfl⟩
  have hheed := heard_heed hover ((sessionId_processLine hs ho raw now).trans hid)
  exact Heard.bind (s.tracker.processLine o.toOptions raw now) hheed

theorem heard_parseLine (h : Overheard tell s s') (hs : s.Sound o) (ho : o.BuiltIn) {i : EventId}
    (hid : s.context.sessionId = i) (raw : String) (cursor : Cursor) :
    Heard tell (tell i).events s.finalized ((·.2.1) <$> s.parseLine o raw cursor)
      ((·.2.1) <$> s'.parseLine o raw cursor) := by
  have hticked : Overheard tell s.ticked s'.ticked := by
    obtain ⟨ks, hks, rfl⟩ := h
    exact ⟨ks, hks, rfl⟩
  have hphase : s'.phase = s.phase := by
    obtain ⟨ks, hks, rfl⟩ := h
    rfl
  have hticks : s'.ticks = s.ticks := by
    obtain ⟨ks, hks, rfl⟩ := h
    rfl
  rcases parseLine_cases o s raw cursor with
    ⟨hp, h⟩ | ⟨hp, hspy, h⟩ | ⟨hp, hspy, hblank, h⟩ | ⟨hp, hspy, hblank, h⟩
  · rw [h, parseLine_late (hphase.trans hp), hticks, session_map, session_map]
    exact heard_lateLine hticked raw _
  · rw [h, parseLine_spy (hphase.trans hp) hspy, hticks, session_map, session_map]
    exact heard_spyLine hticked ⟨hs.tracker, hs.matchers⟩ ho hid raw _
  · rw [h, parseLine_blank (hphase.trans hp) hblank]
    exact .of_eq hticked rfl rfl
  · rw [h, parseLine_plain (hphase.trans hp) hspy hblank]
    exact heard_plainLine hticked raw cursor

theorem heard_call (h : Overheard tell s s') (hs : s.Sound o) (ho : o.BuiltIn) {i : EventId}
    (hid : s.context.sessionId = i) (c : Call) :
    Heard tell (tell i).events s.finalized (s.call o c) (s'.call o c) := by
  cases c with
  | line raw cursor => exact heard_parseLine h hs ho hid raw cursor
  | finish => exact heard_finish h hid

/-- Matchers that were told stay told. -/
theorem finalized_call (h : s.finalized = true) (c : Call) :
    (s.call o c).value.finalized = true := by
  cases c with
  | line raw cursor =>
    simp only [call, Emits.value_map]
    rcases parseLine_cases o s raw cursor with
      ⟨-, hl⟩ | ⟨-, -, hl⟩ | ⟨-, -, -, hl⟩ | ⟨-, -, -, hl⟩
    · rw [hl, Emits.value_map, lateLine_eq]
      split <;> exact h
    · rw [hl, Emits.value_map, spyLine_eq, Emits.value_bind, heed]
      split
      · simp
      · exact h
    · rw [hl]
      exact h
    · rw [hl, value_plainLine]
      exact h
  | finish =>
    by_cases hfin : s.finished = true
    · rwa [call, finish_of_finished hfin]
    · rw [call, finish_eq (by simpa using hfin), Emits.value_bind, value_flush]
      simp

theorem finalized_calls (h : s.finalized = true) (cs : List Call) :
    (s.calls o cs).value.finalized = true := by
  induction cs generalizing s with
  | nil => exact h
  | cons c cs ih => exact ih (finalized_call h c)

theorem sessionId_call (hs : s.Sound o) (ho : o.BuiltIn) (c : Call) :
    (s.call o c).value.context.sessionId = s.context.sessionId := by
  have hmoves := moves_call (K := fun _ => True) hs ho c fun _ _ => trivial
  exact congrArg EventId.session hmoves.session

/-- Whatever calls are made, the listener is heard once if they tell the matchers, and else not. -/
theorem heard_calls (h : Overheard tell s s') (hs : s.Sound o) (ho : o.BuiltIn) {i : EventId}
    (hid : s.context.sessionId = i) (cs : List Call) :
    Heard tell (tell i).events s.finalized (s.calls o cs) (s'.calls o cs) := by
  induction cs generalizing s s' with
  | nil => exact .of_eq h rfl rfl
  | cons c cs ih =>
    have hcall := heard_call h hs ho hid c
    have hrest := ih hcall.value (hs.call ho c) ((sessionId_call hs ho c).trans hid)
    by_cases hmid : (s.call o c).value.finalized = s.finalized
    · -- the call does not tell the matchers, so the others decide
      refine ⟨hrest.value, fun hf => ?_, fun hf => ?_⟩
      · rw [events_calls_cons, events_calls_cons, hcall.still hmid,
          hrest.still (hf.trans hmid.symm)]
      · rw [events_calls_cons, events_calls_cons, hcall.still hmid]
        exact (hrest.once fun h => hf (h.trans hmid)).append_left _
    · -- the call tells them, and the others do not do so again
      have htrue : (s.call o c).value.finalized = true := by
        by_contra hfalse
        have hs' : s.finalized ≠ true := fun h => hfalse (finalized_call h c)
        exact hmid ((Bool.eq_false_iff.2 hfalse).trans (Bool.eq_false_iff.2 hs').symm)
      have hend := (finalized_calls (o := o) htrue cs).trans htrue.symm
      refine ⟨hrest.value, fun hf => absurd (hend.symm.trans hf) hmid, fun _ => ?_⟩
      rw [events_calls_cons, events_calls_cons, hrest.still hend]
      exact (hcall.once hmid).append_right _

end Session

end BuildTree
