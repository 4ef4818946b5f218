import BuildTree.Proofs.Calls

/-!
# The steps of a session

What a call does, as equations: a plain line is forwarded and then offered to the matchers, a line
of the spy channel goes to the tracker and then the session heeds the mark of its end, a late line
counts once, and the end of the output tells the matchers and then flushes what is open.
-/

namespace BuildTree.Session

open Execution Spy

/-! ## Algorithm -/

/-- Whether a line fails a session that is over. -/
def countsLate (s : Session) (raw : String) : Bool :=
  !s.context.failed && !isSpyLine raw && (Line.classify raw).level == some .error

/-- What a running session does after a line of the spy channel. -/
def heed (s : Session) : Emits Session :=
  if s.context.ended then do
    .note .sessionEnded
    { s with phase := .ended }.finalize
  else pure s

/-- What the end of the output does once the matchers were told. -/
def flush (o : Setup) (s : Session) (now : Nat) : Emits Session := do
  let tracker ← s.tracker.abandonAll now
  let context ← finishEntries tracker.context now
  if !context.ended then .event (Tracker.sessionFinished o.toOptions context now .unknown)
  pure { s with tracker := { tracker with context }, phase := .ended }

/-- A plain line offered to the matchers. -/
def offerLine (s : Session) (raw : String) (cursor : Cursor) :
    Emits (Bool × List LineMatcher × Cursor) :=
  LineMatcher.offer s.context s.context.currentId (Line.classify raw) cursor s.matchers

/-! ## Lemmas -/

variable {o : Setup} {s : Session} {raw : String} {cursor : Cursor} {now : Nat}

theorem value_plainLine :
    (s.plainLine o raw cursor).value = ((s.offerLine raw cursor).value.1,
      { s with matchers := (s.offerLine raw cursor).value.2.1 },
      (s.offerLine raw cursor).value.2.2) := by
  unfold plainLine
  split <;> simp only [Emits.value_bind] <;> split <;> rfl

theorem events_plainLine :
    (s.plainLine o raw cursor).events =
      (if o.forward then (forward s.context raw).events else []) ++
        (s.offerLine raw cursor).events := by
  unfold plainLine offerLine
  split
  · simp only [Emits.events_bind]
    split <;> simp
  · simp only [Emits.events_bind]
    split <;> simp

theorem lateLine_eq :
    s.lateLine o raw now =
      if s.countsLate raw then
        ⟨{ s with tracker := { s.tracker with context := s.context.markFailed } },
          [Tracker.sessionFinished o.toOptions s.context now (.failure (Line.classify raw).text)],
          [.lateError raw]⟩
      else pure s := by
  have hcounts : (isSpyLine raw || s.context.failed || (Line.classify raw).level != some .error) =
      !s.countsLate raw := by
    rw [countsLate]
    cases isSpyLine raw <;> cases s.context.failed <;> simp [bne]
  unfold lateLine
  dsimp only
  rw [hcounts]
  cases s.countsLate raw <;> rfl

theorem spyLine_eq :
    s.spyLine o raw now = s.tracker.processLine o.toOptions raw now >>= fun p =>
      { s with tracker := p.2 }.heed := rfl

theorem heed_of_ended (h : s.context.ended = true) :
    s.heed = .note .sessionEnded >>= fun _ => finalize { s with phase := .ended } := if_pos h

theorem heed_of_goes (h : s.context.ended = false) : s.heed = pure s := if_neg (by simp [h])

theorem finish_of_finished (h : s.finished = true) : s.finish o = pure s := by
  rw [finish, if_pos h]

theorem finish_eq (h : s.finished = false) :
    s.finish o = { s with finished := true, ticks := s.ticks + 1 }.finalize >>= fun s' =>
      s'.flush o (o.clock s.ticks) := by
  rw [finish, if_neg (by simp [h])]
  rfl

theorem value_flush :
    (s.flush o now).value = { s with
      tracker := ⟨s.context.liveReversed.foldl Context.complete s.context, []⟩, phase := .ended } := by
  simp only [flush, Emits.value_bind]
  split <;> rfl

/-- What is open finishes unknown: the downloads, the entries, and the session unless it ended. -/
theorem events_flush (o : Setup) (s : Session) (now : Nat) :
    (s.flush o now).events =
      (Download.sorted s.tracker.downloads).map (·.finished now .unknown) ++
        (s.context.liveReversed.map (·.finished now .unknown) ++
          if s.context.ended then []
          else [Tracker.sessionFinished o.toOptions s.context now .unknown]) := by
  have hleft : (finishEntries s.context now).value =
      { s.context with live := (s.context.liveReversed.foldl Context.complete s.context).live } :=
    Context.foldl_complete_eq ..
  have habandon : (s.tracker.abandonAll now).events =
      (Download.sorted s.tracker.downloads).map (·.finished now .unknown) := List.append_nil _
  have hcontext : (s.tracker.abandonAll now).value.context = s.context := rfl
  simp only [flush, Emits.events_bind, habandon, hcontext, hleft]
  cases s.context.ended <;> rfl

theorem events_flush_congr {s' : Session} (h : s'.tracker = s.tracker) :
    (s'.flush o now).events = (s.flush o now).events := by
  rw [events_flush, events_flush, context, context, h]

/-- The end of the output is what the matchers have to say of the session, and then the flush. -/
theorem events_finish (hm : ∀ m ∈ s.matchers, m.IsBuiltIn) (h : s.finished = false) :
    ∃ summary : List Event, (∀ e ∈ summary, e.IsMessage s.context.sessionId) ∧
      (s.finish o).events = summary ++ (s.flush o (o.clock s.ticks)).events := by
  let told := { s with finished := true, ticks := s.ticks + 1 }
  have htracker : told.finalize.value.tracker = s.tracker := tracker_finalize told
  refine ⟨told.finalize.events, messages_finalize (s := told) hm, ?_⟩
  rw [finish_eq h, Emits.events_bind, events_flush_congr htracker]

/-- A filter that lets no output through lets nothing of what is passed on through. -/
theorem filter_forward {f : Event → Bool} (hf : ∀ i text, f (.output i text) = false)
    (c : Context) (raw : String) : (forward c raw).events.filter f = [] := by
  rw [List.filter_eq_nil_iff]
  intro e he
  obtain ⟨i, -, rfl⟩ := List.mem_map.1 he
  simp [hf]

/-- The session of a line that leaves the cursor alone. -/
theorem session_map (x : Emits Session) (taken : Bool) (cursor : Cursor) :
    (fun a : Bool × Session × Cursor => a.2.1) <$> (fun s => (taken, s, cursor)) <$> x = x := by
  ext <;> simp

theorem parseLine_late (h : s.phase = .ended) :
    s.parseLine o raw cursor =
      (fun s => (false, s, cursor)) <$> s.ticked.lateLine o raw (o.clock s.ticks) := by
  simpa [h] using parseLine_cases o s raw cursor

theorem parseLine_spy (h : s.phase = .active) (hspy : isSpyLine raw = true) :
    s.parseLine o raw cursor =
      (fun s => (true, s, cursor)) <$> s.ticked.spyLine o raw (o.clock s.ticks) := by
  simpa [h, hspy] using parseLine_cases o s raw cursor

theorem parseLine_blank (h : s.phase = .active) (hblank : Line.isBlank raw = true) :
    s.parseLine o raw cursor = pure (false, s.ticked, cursor) := by
  have hspy : isSpyLine raw = false := by
    rw [← Bool.not_eq_true]
    intro hspy
    rw [isBlank_of_isSpyLine hspy] at hblank
    cases hblank
  simpa [h, hspy, hblank] using parseLine_cases o s raw cursor

theorem parseLine_plain (h : s.phase = .active) (hspy : isSpyLine raw = false)
    (hblank : Line.isBlank raw = false) :
    s.parseLine o raw cursor = s.ticked.plainLine o raw cursor := by
  simpa [h, hspy, hblank] using parseLine_cases o s raw cursor

end BuildTree.Session
