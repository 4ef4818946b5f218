import BuildTree.Proofs.TrackerMoves

/-!
# Calls of a session

Whoever drives a session makes two kinds of calls, in any order: a line with the cursor
behind it, and the end of the output.  A run is such a sequence: the lines that `parseAll`
hands to `parseLine`, which depend on what the matchers read ahead, and then the end.

    run s lines = calls s (runCalls s lines)                        (run_eq_calls)
    calls s cs = ⟨s', es, _⟩ → Moves o K s.tracker es s'.tracker      (moves_calls)
-/

namespace BuildTree.Session

open Execution

/-! ## Algorithm -/

inductive Call where
  /-- A raw line, and the cursor that holds the lines after it. -/
  | line (raw : String) (cursor : Cursor)
  /-- The end of the output. -/
  | finish

def call (o : Setup) (s : Session) : Call → Emits Session
  | .line raw cursor => (·.2.1) <$> s.parseLine o raw cursor
  | .finish => s.finish o

/-- Calls one after the other. -/
def calls (o : Setup) (s : Session) : List Call → Emits Session
  | [] => pure s
  | c :: cs => do
    let s ← s.call o c
    calls o s cs

/-- The lines that `parseAll` hands to `parseLine`, each with the cursor behind it. -/
def handed (o : Setup) (s : Session) (cursor : Cursor) : List (String × Cursor) :=
  match _h : cursor.next? with
  | none => []
  | some (raw, rest) =>
    let x := s.parseLine o raw rest
    (raw, rest) :: x.value.2.1.handed o x.value.2.2
termination_by cursor.size
decreasing_by
  have := Cursor.size_of_next? _h
  have := s.size_parseLine_le o raw rest
  omega

def lineCalls (ls : List (String × Cursor)) : List Call := ls.map fun l => .line l.1 l.2

/-- The calls that a run makes. -/
def runCalls (o : Setup) (s : Session) (lines : List String) : List Call :=
  lineCalls (s.handed o (.ofLines lines)) ++ [.finish]

/-- The session after it read the clock once more. -/
def ticked (s : Session) : Session := { s with ticks := s.ticks + 1 }

/-! ## Lemmas -/

/-- A spy line starts with a bracket, so it is never blank. -/
theorem isBlank_of_isSpyLine {raw : String} (h : Spy.isSpyLine raw = true) :
    Line.isBlank raw = false := by
  obtain ⟨rest, hrest⟩ := Option.isSome_iff_exists.1 h
  have hbracket : Text.isBlank '[' = false := by decide
  rw [Line.isBlank, Text.eq_append_of_after? hrest]
  simp [Text.allBlank, Spy.lineMark, hbracket]

/-- The four ways of a line: late, for the tracker, blank, or for the matchers. -/
theorem parseLine_cases (o : Setup) (s : Session) (raw : String) (cursor : Cursor) :
    (s.phase = .ended ∧ s.parseLine o raw cursor =
      (fun s => (false, s, cursor)) <$> s.ticked.lateLine o raw (o.clock s.ticks)) ∨
    (s.phase = .active ∧ Spy.isSpyLine raw = true ∧ s.parseLine o raw cursor =
      (fun s => (true, s, cursor)) <$> s.ticked.spyLine o raw (o.clock s.ticks)) ∨
    (s.phase = .active ∧ Spy.isSpyLine raw = false ∧ Line.isBlank raw = true ∧
      s.parseLine o raw cursor = pure (false, s.ticked, cursor)) ∨
    (s.phase = .active ∧ Spy.isSpyLine raw = false ∧ Line.isBlank raw = false ∧
      s.parseLine o raw cursor = s.ticked.plainLine o raw cursor) := by
  obtain ⟨tracker, matchers, phase, finalized, finished, ticks⟩ := s
  unfold parseLine
  cases phase with
  | ended => exact Or.inl ⟨rfl, rfl⟩
  | active =>
    right
    cases hspy : Spy.isSpyLine raw with
    | true =>
      rw [isBlank_of_isSpyLine hspy]
      exact Or.inl ⟨rfl, rfl, rfl⟩
    | false =>
      right
      cases Line.isBlank raw with
      | true => exact Or.inl ⟨rfl, rfl, rfl, rfl⟩
      | false => exact Or.inr ⟨rfl, rfl, rfl, rfl⟩

theorem parseAll_of_end {cursor : Cursor} (h : cursor.next? = none) (o : Setup) (s : Session) :
    s.parseAll o cursor = pure s := by
  unfold parseAll
  split
  · rfl
  · next h' => rw [h] at h'; cases h'

theorem parseAll_of_next {cursor rest : Cursor} {raw : String}
    (h : cursor.next? = some (raw, rest)) (o : Setup) (s : Session) :
    s.parseAll o cursor = ((·.2.1) <$> s.parseLine o raw rest) >>= fun s' =>
      s'.parseAll o (s.parseLine o raw rest).value.2.2 := by
  rw [parseAll]
  split
  · next h' => rw [h] at h'; cases h'
  · next raw' rest' h' =>
    rw [h] at h'
    obtain ⟨rfl, rfl⟩ := Prod.mk.inj (Option.some.inj h')
    rw [seqRight_eq_bind]
    ext <;> simp

section
variable (o : Setup) (s : Session) (c : Call) (cs ds : List Call)

@[simp] theorem value_calls_nil : (s.calls o []).value = s := rfl
@[simp] theorem events_calls_nil : (s.calls o []).events = [] := rfl

@[simp] theorem value_calls_cons :
    (s.calls o (c :: cs)).value = ((s.call o c).value.calls o cs).value := rfl

@[simp] theorem events_calls_cons :
    (s.calls o (c :: cs)).events = (s.call o c).events ++ ((s.call o c).value.calls o cs).events :=
  rfl

theorem calls_append :
    s.calls o (cs ++ ds) = s.calls o cs >>= fun s => s.calls o ds := by
  induction cs generalizing s with
  | nil => simp [calls]
  | cons c cs ih => simp [calls, ih]

theorem parseAll_eq_calls (cursor : Cursor) :
    s.parseAll o cursor = s.calls o (lineCalls (s.handed o cursor)) := by
  fun_induction handed o s cursor with
  | case1 s cursor h => exact parseAll_of_end h o s
  | case2 s cursor raw rest h x ih =>
    simp only [x] at ih ⊢
    rw [parseAll_of_next h]
    ext <;> simp [lineCalls, calls, call, ih]

theorem run_eq_calls (lines : List String) : s.run o lines = s.calls o (s.runCalls o lines) := by
  rw [runCalls, calls_append, ← parseAll_eq_calls]
  simp [run, calls, call]

end

/-! ## Calls as moves -/

/-- A property that the matchers keep, whatever is offered to them and when the session ends. -/
structure Stays (P : List LineMatcher → Prop) : Prop where
  offer : ∀ {ms} context parent line cursor, P ms →
    P (LineMatcher.offer context parent line cursor ms).value.2.1
  finalizeAll : ∀ {ms} session, P ms → P (LineMatcher.finalizeAll session ms).value

/-- The tracker fits together, and no matcher comes from the host. -/
structure Sound (o : Setup) (s : Session) : Prop where
  tracker : s.tracker.Valid o.toOptions
  matchers : ∀ m ∈ s.matchers, m.IsBuiltIn

section
variable {o : Setup} {s : Session} {K : Entry → Prop} {raw : String} {cursor : Cursor} {now : Nat}

theorem sound_start (settings : Settings) (o : Setup) (session : Nat) :
    (start settings (.fresh session)).Sound o :=
  ⟨Tracker.valid_fresh _ session, builtIn_start settings _⟩

@[simp] theorem tracker_finalize (s : Session) : s.finalize.value.tracker = s.tracker := by
  unfold finalize
  split <;> rfl

theorem tracker_spyLine (o : Setup) (s : Session) (raw : String) (now : Nat) :
    (s.spyLine o raw now).value.tracker =
      (s.tracker.processLine o.toOptions raw now).value.2 := by
  simp only [spyLine, Emits.value_bind]
  split <;> simp

theorem tracker_plainLine (o : Setup) (s : Session) (raw : String) (cursor : Cursor) :
    (s.plainLine o raw cursor).value.2.1.tracker = s.tracker := by
  unfold plainLine
  split <;> simp only [Emits.value_bind] <;> split <;> rfl

/-- The end of the output leaves nothing open. -/
theorem tracker_finish {o : Setup} {s : Session} (h : s.finished = false) :
    (s.finish o).value.tracker =
      { context := s.context.liveReversed.foldl Context.complete s.context, downloads := [] } := by
  rw [finish, if_neg (by simp [h])]
  simp only [Emits.value_bind, tracker_finalize]
  split <;> rfl

theorem messages_finalize (hm : ∀ m ∈ s.matchers, m.IsBuiltIn) :
    ∀ e ∈ s.finalize.events, e.IsMessage s.context.sessionId := by
  unfold finalize
  split
  · exact fun _ he => absurd he List.not_mem_nil
  · simpa using LineMatcher.messages_finalizeAll hm s.context.sessionId

theorem moves_finalize (hs : s.Sound o) :
    Tracker.Moves o.toOptions K s.tracker s.finalize.events s.finalize.value.tracker := by
  rw [tracker_finalize]
  exact Tracker.moves_messages (Context.holds_sessionId (c := s.context))
    (messages_finalize hs.matchers)

theorem moves_forward (raw : String) :
    Tracker.Moves o.toOptions K s.tracker (forward s.context raw).events s.tracker := by
  refine Tracker.moves_asides fun e he => ?_
  obtain ⟨i, hi, rfl⟩ := List.mem_map.1 he
  refine .output _ ?_
  unfold forwardTargets at hi
  split at hi
  · rw [List.mem_singleton.1 hi]
    exact Context.holds_sessionId
  · obtain ⟨x, hx, rfl⟩ := List.mem_map.1 hi
    exact Context.holds_of_live (Context.mem_liveOfLastThread hx)

theorem moves_lateLine (raw : String) (now : Nat) :
    Tracker.Moves o.toOptions K s.tracker (s.lateLine o raw now).events
      (s.lateLine o raw now).value.tracker := by
  unfold lateLine
  dsimp only
  split
  · exact .refl _
  · exact .more (.remarks (.sessionFinished now o.sessionName _))
      (Tracker.Move.marks s.context.markFailed rfl rfl rfl).one

theorem moves_spyLine (hs : s.Sound o) (ho : o.BuiltIn) (raw : String) (now : Nat)
    (hK : ∀ e ∈ (s.spyLine o raw now).value.context.live, K e) :
    Tracker.Moves o.toOptions K s.tracker (s.spyLine o raw now).events
      (s.spyLine o raw now).value.tracker := by
  have hline : Tracker.Moves o.toOptions K s.tracker
      (s.tracker.processLine o.toOptions raw now).events
      (s.tracker.processLine o.toOptions raw now).value.2 := by
    refine Tracker.moves_processLine hs.tracker ho raw ?_
    simpa only [context, tracker_spyLine] using hK
  rw [tracker_spyLine]
  simp only [spyLine, Emits.events_bind]
  refine hline.trans ?_
  split
  · have hs' : Sound o { s with
        tracker := (s.tracker.processLine o.toOptions raw now).value.2, phase := .ended } :=
      ⟨hline.valid hs.tracker, hs.matchers⟩
    simpa using moves_finalize (K := K) hs'
  · exact .refl _

theorem moves_plainLine (hs : s.Sound o) :
    Tracker.Moves o.toOptions K s.tracker (s.plainLine o raw cursor).events
      (s.plainLine o raw cursor).value.2.1.tracker := by
  have hoffer : Tracker.Moves o.toOptions K s.tracker
      (LineMatcher.offer s.context s.context.currentId (Line.classify raw) cursor s.matchers).events
      s.tracker :=
    Tracker.moves_messages (Context.holds_currentId (c := s.context))
      (LineMatcher.messages_offer hs.matchers _ _ _ _)
  rw [tracker_plainLine]
  unfold plainLine
  split
  · simp only [Emits.events_bind]
    refine (moves_forward raw).trans ?_
    split <;> simpa using hoffer
  · simp only [Emits.events_bind]
    split <;> simpa using hoffer

theorem moves_parseLine (hs : s.Sound o) (ho : o.BuiltIn)
    (hK : ∀ e ∈ (s.parseLine o raw cursor).value.2.1.context.live, K e) :
    Tracker.Moves o.toOptions K s.tracker (s.parseLine o raw cursor).events
      (s.parseLine o raw cursor).value.2.1.tracker := by
  have hticked : Sound o s.ticked := ⟨hs.tracker, hs.matchers⟩
  rcases parseLine_cases o s raw cursor with
    ⟨-, h⟩ | ⟨-, -, h⟩ | ⟨-, -, -, h⟩ | ⟨-, -, -, h⟩
  · rw [h, Emits.events_map, Emits.value_map]
    exact moves_lateLine (s := s.ticked) raw _
  · rw [h, Emits.value_map] at hK
    rw [h, Emits.events_map, Emits.value_map]
    exact moves_spyLine hticked ho raw _ hK
  · rw [h]
    exact .refl _
  · rw [h]
    exact moves_plainLine hticked

theorem moves_finish (hs : s.Sound o) :
    Tracker.Moves o.toOptions K s.tracker (s.finish o).events (s.finish o).value.tracker := by
  unfold finish
  split
  · exact .refl _
  · have hfinal : Tracker.Moves o.toOptions K s.tracker
        (finalize { s with finished := true, ticks := s.ticks + 1 }).events s.tracker := by
      have hs' : Sound o { s with finished := true, ticks := s.ticks + 1 } :=
        ⟨hs.tracker, hs.matchers⟩
      simpa using moves_finalize (K := K) hs'
    have habandon := Tracker.moves_abandonAll (K := K) (o := o.toOptions) hs.tracker
      (o.clock s.ticks)
    have hn := hs.tracker.numbered
    have hentries := Tracker.moves_finishEntries (K := K) (o := o.toOptions)
      (t := (s.tracker.abandonAll (o.clock s.ticks)).value) (o.clock s.ticks) hn rfl
      (fun e he => (Context.liveReversed_perm _).mem_iff.1 he)
      ((Context.liveReversed_perm _).nodup_iff.2 hn.distinct.of_map)
    simp only [Emits.events_bind, Emits.value_bind, tracker_finalize]
    refine hfinal.trans (habandon.trans (hentries.trans ?_))
    split
    · exact .more (.remarks (.sessionFinished _ o.sessionName _)) (.refl _)
    · exact .refl _

theorem moves_call (hs : s.Sound o) (ho : o.BuiltIn) (c : Call)
    (hK : ∀ e ∈ (s.call o c).value.context.live, K e) :
    Tracker.Moves o.toOptions K s.tracker (s.call o c).events (s.call o c).value.tracker := by
  cases c with
  | line raw cursor =>
    simp only [call, Emits.events_map, Emits.value_map] at hK ⊢
    exact moves_parseLine hs ho hK
  | finish => exact moves_finish hs

theorem Stays.finalize {P : List LineMatcher → Prop} (hP : Stays P) (h : P s.matchers) :
    P s.finalize.value.matchers := by
  unfold Session.finalize
  split
  · exact h
  · exact hP.finalizeAll _ h

theorem Stays.plainLine {P : List LineMatcher → Prop} (hP : Stays P) (h : P s.matchers)
    (raw : String) (cursor : Cursor) : P (s.plainLine o raw cursor).value.2.1.matchers := by
  have hoffer := hP.offer s.context s.context.currentId (Line.classify raw) cursor h
  unfold Session.plainLine
  split <;> simp only [Emits.value_bind] <;> split <;> exact hoffer

theorem Stays.call {P : List LineMatcher → Prop} (hP : Stays P) (h : P s.matchers) (c : Call) :
    P (s.call o c).value.matchers := by
  cases c with
  | line raw cursor =>
    show P (s.parseLine o raw cursor).value.2.1.matchers
    rcases parseLine_cases o s raw cursor with
      ⟨-, hl⟩ | ⟨-, -, hl⟩ | ⟨-, -, -, hl⟩ | ⟨-, -, -, hl⟩
    · rw [hl, Emits.value_map, lateLine]
      dsimp only
      split <;> exact h
    · rw [hl, Emits.value_map]
      simp only [spyLine, Emits.value_bind]
      split
      · exact hP.finalize h
      · exact h
    · rw [hl]
      exact h
    · rw [hl]
      exact hP.plainLine (s := s.ticked) h raw cursor
  | finish =>
    simp only [Session.call, Session.finish]
    split
    · exact h
    · simp only [Emits.value_bind]
      split <;> exact hP.finalize (s := { s with finished := true, ticks := s.ticks + 1 }) h

theorem Stays.calls {P : List LineMatcher → Prop} (hP : Stays P) (h : P s.matchers)
    (cs : List Call) : P (s.calls o cs).value.matchers := by
  induction cs generalizing s with
  | nil => exact h
  | cons c cs ih => exact ih (hP.call h c)

theorem stays_builtIn : Stays fun ms => ∀ m ∈ ms, m.IsBuiltIn where
  offer context parent line cursor h := LineMatcher.isBuiltIn_offer h context parent line cursor
  finalizeAll session h := LineMatcher.isBuiltIn_finalizeAll h session

theorem isBuiltIn_call (hm : ∀ m ∈ s.matchers, m.IsBuiltIn) (c : Call) :
    ∀ m ∈ (s.call o c).value.matchers, m.IsBuiltIn := stays_builtIn.call hm c

theorem isBuiltIn_calls (hm : ∀ m ∈ s.matchers, m.IsBuiltIn) (cs : List Call) :
    ∀ m ∈ (s.calls o cs).value.matchers, m.IsBuiltIn := stays_builtIn.calls hm cs

theorem Sound.call (hs : s.Sound o) (ho : o.BuiltIn) (c : Call) : (s.call o c).value.Sound o := by
  have hmoves := moves_call (K := fun _ => True) hs ho c fun _ _ => trivial
  exact ⟨hmoves.valid hs.tracker, isBuiltIn_call hs.matchers c⟩

theorem Sound.calls (hs : s.Sound o) (ho : o.BuiltIn) (cs : List Call) :
    (s.calls o cs).value.Sound o := by
  induction cs generalizing s with
  | nil => exact hs
  | cons c cs ih => exact ih (hs.call ho c)

/-- The calls of a sound session move its tracker; `K` has to hold of the entries that are live
after some of the calls. -/
theorem moves_calls (hs : s.Sound o) (ho : o.BuiltIn) (cs : List Call)
    (hK : ∀ k, ∀ e ∈ (s.calls o (cs.take k)).value.context.live, K e) :
    Tracker.Moves o.toOptions K s.tracker (s.calls o cs).events (s.calls o cs).value.tracker := by
  induction cs generalizing s with
  | nil => exact .refl _
  | cons c cs ih =>
    have hcall := moves_call hs ho c (hK 1)
    exact hcall.trans (ih (hs.call ho c) fun k => hK (k + 1))

/-- What holds of a fresh tracker before any event, and is kept by every move, holds after any
calls of a fresh session. -/
theorem calls_keep (settings : Settings) (clock : Nat → Nat) (n : Nat) (cs : List Call)
    {I : List Event → Tracker → Prop}
    (hK : ∀ k, ∀ e ∈ ((start settings (.fresh n)).calls (.ofSettings settings clock)
      (cs.take k)).value.context.live, K e)
    (h0 : I [] (.fresh n))
    (hI : ∀ {es t fs t'}, I es t →
      Tracker.Move (Setup.ofSettings settings clock).toOptions K t fs t' → I (es ++ fs) t') :
    let x := (start settings (.fresh n)).calls (.ofSettings settings clock) cs
    I x.events x.value.tracker := by
  have hmoves := moves_calls (sound_start settings (.ofSettings settings clock) n)
    (Setup.builtIn_ofSettings settings clock) cs hK
  exact hmoves.keep hI h0

end

end BuildTree.Session
