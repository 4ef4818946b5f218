import BuildTree.Proofs.Equivariance
import Mathlib.Logic.Equiv.Basic
import Mathlib.Order.Monotone.Basic

/-!
# Running the same output again

A session that gets the same lines under another number, with another clock, does the same again:
its events are those of the first run with the number replaced, up to their times.  The times of a
run are what its clock answered, in the order of the readings.

    run of the renumbered session = run of the session, renumbered        (reruns_run)
    a run under m, given n for m  = the run under n                       (run_under)
-/

namespace BuildTree

open Execution Spy Events Emits

/-! ## Algorithm -/

/-- The number of the session in an id becomes another one; names of texts stay. -/
def EventId.replaceSession (m n : Nat) : EventId → EventId
  | .session k => .session (if k = m then n else k)
  | .entry k q => .entry (if k = m then n else k) q
  | .named text => .named text

def Event.replaceSession (m n : Nat) : Event → Event
  | .started i parent time name =>
    .started (i.replaceSession m n) (parent.map (·.replaceSession m n)) time name
  | .finished i parent time name outcome =>
    .finished (i.replaceSession m n) (parent.map (·.replaceSession m n)) time name outcome
  | .output parent text => .output (parent.replaceSession m n) text
  | .message parent severity title text position =>
    .message (parent.replaceSession m n) severity title text position

def Execution.Entry.replaceSession (m n : Nat) (e : Entry) : Entry :=
  { e with
    id := e.id.replaceSession m n
    parent := { e.parent with id := e.parent.id.replaceSession m n } }

def Execution.Context.replaceSession (m n : Nat) (c : Context) : Context :=
  { c with
    session := if c.session = m then n else c.session
    live := c.live.map (·.replaceSession m n) }

/-- Two numbers change places. -/
def Renumbering.exchange (a b : Nat) : Renumbering :=
  ⟨Equiv.swap a b, id, (Equiv.swap a b).injective, Function.injective_id⟩

/-- Every number but `m` becomes another one. -/
def Renumbering.keepOnly (m : Nat) : Renumbering where
  session k := if k = m then m else k + m + 1
  entry := id
  session_injective a b h := by
    dsimp only at h
    grind
  entry_injective := Function.injective_id

/-- The times of a stream are answers of a clock in the order of its readings, those from the reading
`j` on and before the reading `k`. -/
def Events.Stamped (clock : Nat → Nat) (j k : Nat) (es : List Event) : Prop :=
  j ≤ k ∧ ∃ readings : List Nat, readings.Pairwise (· ≤ ·) ∧ (∀ i ∈ readings, j ≤ i ∧ i < k) ∧
    es.filterMap Event.time? = readings.map clock

namespace Session

def renumber (r : Renumbering) (s : Session) : Session :=
  { s with tracker := s.tracker.renumber r }

/-- A setup with another clock. -/
def Setup.withClock (o : Setup) (clock : Nat → Nat) : Setup := { o with clock }

/-- From a session on, a second run does under new numbers and by another clock what the first one
does. -/
structure Reruns (r : Renumbering) (clock : Nat → Nat) (s : Session) (x y : Emits Session) :
    Prop where
  value : y.value = x.value.renumber r
  events : y.events.map untimed = (x.events.map untimed).map (·.renumber r)
  times : Stamped clock s.ticks x.value.ticks y.events

end Session

/-! ## Numbers -/

section
variable {m n k : Nat} {i : EventId} {e : Event} {x : Entry} {c : Context}

theorem eq_of_keepOnly (h : (Renumbering.keepOnly m).session k = k) : k = m := by
  by_contra hne
  have hmoved : (Renumbering.keepOnly m).session k = k + m + 1 := if_neg hne
  omega

/-! What keeps its numbers when every other number than `m` is taken away has no other one, so that
there an exchange of `m` and `n` only replaces `m`. -/

theorem EventId.renumber_exchange (h : i.renumber (.keepOnly m) = i) :
    i.renumber (.exchange m n) = i.replaceSession m n := by
  cases i with
  | session k =>
    have hk : k = m := eq_of_keepOnly (EventId.session.inj h)
    simp [renumber, replaceSession, Renumbering.exchange, hk]
  | entry k q =>
    have hk : k = m := eq_of_keepOnly (EventId.entry.inj h).1
    simp [renumber, replaceSession, Renumbering.exchange, hk]
  | named text => rfl

theorem EventId.map_renumber_exchange {parent : Option EventId}
    (h : parent.map (·.renumber (.keepOnly m)) = parent) :
    parent.map (·.renumber (.exchange m n)) = parent.map (·.replaceSession m n) := by
  cases parent with
  | none => rfl
  | some i => exact congrArg some (renumber_exchange (Option.some.inj h))

theorem Event.renumber_exchange (h : e.renumber (.keepOnly m) = e) :
    e.renumber (.exchange m n) = e.replaceSession m n := by
  cases e with
  | started i parent time name =>
    obtain ⟨hi, hparent, -⟩ := Event.started.inj h
    simp only [renumber, replaceSession, EventId.renumber_exchange hi,
      EventId.map_renumber_exchange hparent]
  | finished i parent time name outcome =>
    obtain ⟨hi, hparent, -⟩ := Event.finished.inj h
    simp only [renumber, replaceSession, EventId.renumber_exchange hi,
      EventId.map_renumber_exchange hparent]
  | output parent text =>
    simp only [renumber, replaceSession, EventId.renumber_exchange (Event.output.inj h).1]
  | message parent severity title text position =>
    simp only [renumber, replaceSession, EventId.renumber_exchange (Event.message.inj h).1]

theorem Execution.Entry.renumber_exchange (h : x.renumber (.keepOnly m) = x) :
    x.renumber (.exchange m n) = x.replaceSession m n := by
  have hid := congrArg Entry.id h
  have hparent := congrArg (·.parent.id) h
  simp only [renumber, replaceSession, Parent.renumber, EventId.renumber_exchange hid,
    EventId.renumber_exchange hparent]

theorem map_eq_of_fixed {α : Type} {f g h : α → α} {xs : List α}
    (hfixed : ∀ x, f x = x → g x = h x) (hxs : xs.map f = xs) : xs.map g = xs.map h :=
  List.map_congr_left fun x hx =>
    hfixed x (List.map_inj_left.1 (hxs.trans (List.map_id xs).symm) x hx)

theorem Execution.Context.renumber_exchange (h : c.renumber (.keepOnly m) = c) :
    c.renumber (.exchange m n) = c.replaceSession m n := by
  have hsession : c.session = m := eq_of_keepOnly (congrArg Context.session h)
  have hlive : c.live.map (·.renumber (.exchange m n)) = c.live.map (·.replaceSession m n) :=
    map_eq_of_fixed (fun _ => Entry.renumber_exchange) (congrArg Context.live h)
  have hnumber : (Renumbering.exchange m n).session c.session =
      if c.session = m then n else c.session := by
    rw [if_pos hsession, hsession]
    exact Equiv.swap_apply_left m n
  rw [renumber, replaceSession, hlive, hnumber]

end

/-! ## Matchers -/

namespace LineMatcher

variable {r : Renumbering} {later : Nat} {m : LineMatcher} {ms : List LineMatcher}

theorem mirrors_tryConsume (hm : m.IsBuiltIn) (c c' : Context) (parent : EventId) (line : Line)
    (cursor : Cursor) :
    Mirrors r later id (m.tryConsume c parent line cursor)
      (m.tryConsume c' (parent.renumber r) line cursor) := by
  cases m with
  | javac tally =>
    refine Mirrors.bind (f := id) ?_ (.pure _)
    unfold Javac.tryConsume
    split
    · exact (Mirrors.event _).bind (.pure _)
    · split
      · exact .pure _
      · exact (Mirrors.event _).bind (.pure _)
  | kotlin =>
    refine Mirrors.bind (f := id) ?_ (.pure _)
    unfold Kotlin.tryConsume
    split
    · exact .pure _
    · exact (Mirrors.event _).bind (.pure _)
  | rule h => exact hm.elim

theorem mirrors_offer (hms : ∀ m ∈ ms, m.IsBuiltIn) (c c' : Context) (parent : EventId) (line : Line)
    (cursor : Cursor) :
    Mirrors r later id (offer c parent line cursor ms)
      (offer c' (parent.renumber r) line cursor ms) := by
  induction ms generalizing cursor with
  | nil => exact .pure _
  | cons m ms ih =>
    have hrest := ih fun m' hm' => hms m' (List.mem_cons_of_mem _ hm')
    unfold offer
    split
    · refine Mirrors.bind (mirrors_tryConsume (hms m List.mem_cons_self) c c' parent line cursor) ?_
      simp only [id]
      split
      · exact .pure _
      · exact Mirrors.bind (hrest _) (.pure _)
    · exact Mirrors.bind (hrest cursor) (.pure _)

theorem mirrors_finalizeAll (hms : ∀ m ∈ ms, m.IsBuiltIn) (session : EventId) :
    Mirrors r later id (finalizeAll session ms) (finalizeAll (session.renumber r) ms) := by
  induction ms with
  | nil => exact .pure _
  | cons m ms ih =>
    have hm := hms m List.mem_cons_self
    have hfinal : Mirrors r later id (m.finalize session) (m.finalize (session.renumber r)) := by
      cases m with
      | javac tally =>
        refine Mirrors.map (f := id) ?_ rfl
        unfold Javac.finalize
        split
        · exact .pure _
        · exact (Mirrors.event _).bind (.pure _)
      | kotlin => exact .pure _
      | rule h => exact hm.elim
    exact hfinal.bind ((ih fun m' hm' => hms m' (List.mem_cons_of_mem _ hm')).bind (.pure _))

end LineMatcher

/-! ## Calls -/

namespace Session

variable {o : Setup} {r : Renumbering} {clock : Nat → Nat} {now later : Nat} {s : Session}

theorem mirrors_finalize (hm : ∀ m ∈ s.matchers, m.IsBuiltIn) :
    Mirrors r later (·.renumber r) s.finalize (s.renumber r).finalize := by
  unfold finalize
  rw [show (s.renumber r).finalized = s.finalized from rfl]
  split
  · exact .pure s
  · exact (LineMatcher.mirrors_finalizeAll hm s.context.sessionId).bind (.pure _)

theorem mirrors_forward (c : Context) (raw : String) :
    Mirrors r later id (forward c raw) (forward (c.renumber r) raw) := by
  refine ⟨rfl, ?_⟩
  have htargets : forwardTargets (c.renumber r) = (forwardTargets c).map (·.renumber r) := by
    unfold forwardTargets
    rw [c.liveOfLastThread_renumber]
    cases c.liveOfLastThread with
    | nil => rfl
    | cons e es => simp
  simp only [forward, htargets, List.map_map]
  rfl

theorem mirrors_lateLine (raw : String) :
    Mirrors r later (·.renumber r) (s.lateLine o raw now)
      ((s.renumber r).lateLine (o.withClock clock) raw later) := by
  unfold lateLine
  dsimp only
  rw [show (s.renumber r).context.failed = s.context.failed from rfl]
  split
  · exact .pure s
  · exact ⟨rfl, rfl⟩

theorem mirrors_spyLine (hr : r.KeepsEntries) (ho : o.BuiltIn)
    (hm : ∀ m ∈ s.matchers, m.IsBuiltIn) (raw : String) :
    Mirrors r later (·.renumber r) (s.spyLine o raw now)
      ((s.renumber r).spyLine (o.withClock clock) raw later) := by
  refine (s.tracker.mirrors_processLine hr ho raw).bind ?_
  dsimp only [Prod.map]
  rw [show (Tracker.renumber r (s.tracker.processLine o.toOptions raw now).value.2).context.ended =
    (s.tracker.processLine o.toOptions raw now).value.2.context.ended from rfl]
  split
  · exact (Mirrors.note _).bind (mirrors_finalize (s := { s with
      tracker := (s.tracker.processLine o.toOptions raw now).value.2, phase := .ended }) hm)
  · exact .pure _

theorem mirrors_plainLine (hm : ∀ m ∈ s.matchers, m.IsBuiltIn) (raw : String) (cursor : Cursor) :
    Mirrors r later (Prod.map id (Prod.map (·.renumber r) id)) (s.plainLine o raw cursor)
      ((s.renumber r).plainLine (o.withClock clock) raw cursor) := by
  have hoffer : Mirrors r later id (s.offerLine raw cursor) ((s.renumber r).offerLine raw cursor) := by
    have hcurrent : (s.renumber r).context.currentId = _ := s.context.currentId_renumber
    rw [offerLine, offerLine, hcurrent]
    exact LineMatcher.mirrors_offer hm _ _ _ _ _
  have hforward : (if o.forward then (forward (s.renumber r).context raw).events else []) =
      (if o.forward then (forward s.context raw).events else []).map
        fun e => (e.renumber r).retime later := by
    split
    · exact (mirrors_forward s.context raw).events
    · rfl
  refine ⟨?_, ?_⟩
  · rw [value_plainLine, value_plainLine, hoffer.value]
    rfl
  · rw [events_plainLine, events_plainLine, hoffer.events, List.map_append, ← hforward]
    rfl

theorem mirrors_parseLine (hr : r.KeepsEntries) (ho : o.BuiltIn)
    (hm : ∀ m ∈ s.matchers, m.IsBuiltIn) (raw : String) (cursor : Cursor) :
    Mirrors r (clock s.ticks) (Prod.map id (Prod.map (·.renumber r) id)) (s.parseLine o raw cursor)
      ((s.renumber r).parseLine (o.withClock clock) raw cursor) := by
  have hphase : (s.renumber r).phase = s.phase := rfl
  cases hp : s.phase with
  | ended =>
    rw [parseLine_late hp, parseLine_late (hphase.trans hp)]
    exact (mirrors_lateLine (s := s.ticked) raw).map rfl
  | active =>
    by_cases hspy : isSpyLine raw = true
    · rw [parseLine_spy hp hspy, parseLine_spy (hphase.trans hp) hspy]
      exact (mirrors_spyLine (s := s.ticked) hr ho hm raw).map rfl
    · by_cases hblank : Line.isBlank raw = true
      · rw [parseLine_blank hp hblank, parseLine_blank (hphase.trans hp) hblank]
        exact ⟨rfl, rfl⟩
      · have hspy : isSpyLine raw = false := by simpa using hspy
        have hblank : Line.isBlank raw = false := by simpa using hblank
        rw [parseLine_plain hp hspy hblank, parseLine_plain (hphase.trans hp) hspy hblank]
        exact mirrors_plainLine (s := s.ticked) hm raw cursor

theorem mirrors_finishEntries (c : Context) :
    Mirrors r later (·.renumber r) (finishEntries c now) (finishEntries (c.renumber r) later) := by
  refine ⟨?_, ?_⟩
  · simp only [finishEntries, c.liveReversed_renumber, c.foldl_complete_renumber]
  · simp only [finishEntries, c.liveReversed_renumber, List.map_map]
    rfl

theorem mirrors_flush :
    Mirrors r later (·.renumber r) (s.flush o now) ((s.renumber r).flush (o.withClock clock) later) := by
  refine s.tracker.mirrors_abandonAll.bind ((mirrors_finishEntries _).bind ?_)
  have hended : ∀ c : Context, (c.renumber r).ended = c.ended := fun _ => rfl
  dsimp only
  rw [hended]
  split
  · exact (Mirrors.event _).bind (.pure _)
  · exact .pure _

theorem mirrors_finish (hm : ∀ m ∈ s.matchers, m.IsBuiltIn) :
    Mirrors r (clock s.ticks) (·.renumber r) (s.finish o)
      ((s.renumber r).finish (o.withClock clock)) := by
  have hfinished : (s.renumber r).finished = s.finished := rfl
  by_cases hfin : s.finished = true
  · rw [finish_of_finished hfin, finish_of_finished (hfinished.trans hfin)]
    exact .pure s
  · have hfin : s.finished = false := by simpa using hfin
    rw [finish_eq hfin, finish_eq (hfinished.trans hfin)]
    exact (mirrors_finalize (s := { s with finished := true, ticks := s.ticks + 1 }) hm).bind
      mirrors_flush

/-! ## Times -/

theorem time?_retime {e : Event} {t : Nat} (h : (e.retime now).time? = some t) : t = now := by
  cases e <;> simp_all [Event.retime, Event.time?]

theorem untimed_retime (e : Event) : untimed (e.retime now) = untimed e := by cases e <;> rfl

theorem stamped_nil (clock : Nat → Nat) (k : Nat) : Stamped clock k k [] :=
  ⟨Nat.le_refl k, [], List.Pairwise.nil, fun _ hi => absurd hi List.not_mem_nil, rfl⟩

theorem stamped_retimed (clock : Nat → Nat) (k : Nat) (f : Event → Event) (es : List Event) :
    Stamped clock k (k + 1) (es.map fun e => (f e).retime (clock k)) := by
  let times := (es.map fun e => (f e).retime (clock k)).filterMap Event.time?
  have htimes : times = List.replicate times.length (clock k) := by
    refine List.eq_replicate_iff.2 ⟨rfl, fun t ht => ?_⟩
    obtain ⟨e, he, htime⟩ := List.mem_filterMap.1 ht
    obtain ⟨x, -, rfl⟩ := List.mem_map.1 he
    exact time?_retime htime
  refine ⟨Nat.le_succ k, List.replicate times.length k, ?_, fun i hi => ?_, ?_⟩
  · exact List.pairwise_replicate.2 (Or.inr (Nat.le_refl k))
  · rw [List.eq_of_mem_replicate hi]
    exact ⟨Nat.le_refl k, Nat.lt_succ_self k⟩
  · rw [List.map_replicate]
    exact htimes

theorem stamped_append {j k l : Nat} {es fs : List Event} (h : Stamped clock j k es)
    (h' : Stamped clock k l fs) : Stamped clock j l (es ++ fs) := by
  obtain ⟨hjk, is, his, hi, hes⟩ := h
  obtain ⟨hkl, js, hjs, hj, hfs⟩ := h'
  refine ⟨Nat.le_trans hjk hkl, is ++ js, ?_, fun i hmem => ?_, ?_⟩
  · refine List.pairwise_append.2 ⟨his, hjs, fun a ha b hb => ?_⟩
    exact Nat.le_trans (Nat.le_of_lt (hi a ha).2) (hj b hb).1
  · rcases List.mem_append.1 hmem with hmem | hmem
    · exact ⟨(hi i hmem).1, Nat.lt_of_lt_of_le (hi i hmem).2 hkl⟩
    · exact ⟨Nat.le_trans hjk (hj i hmem).1, (hj i hmem).2⟩
  · rw [List.filterMap_append, hes, hfs, List.map_append]

/-- By a clock that never goes back the times of a stream never decrease. -/
theorem pairwise_of_stamped {j k : Nat} {es : List Event} (h : Stamped clock j k es)
    (hclock : Monotone clock) : (es.filterMap Event.time?).Pairwise (· ≤ ·) := by
  obtain ⟨-, readings, hsorted, -, htimes⟩ := h
  rw [htimes]
  exact List.pairwise_map.2 (hsorted.imp fun hle => hclock hle)

/-! ## Runs -/

theorem ticks_finalize (s : Session) : s.finalize.value.ticks = s.ticks := by
  unfold finalize
  split <;> rfl

theorem ticks_parseLine (o : Setup) (s : Session) (raw : String) (cursor : Cursor) :
    (s.parseLine o raw cursor).value.2.1.ticks = s.ticks + 1 := by
  rcases parseLine_cases o s raw cursor with
    ⟨-, h⟩ | ⟨-, -, h⟩ | ⟨-, -, -, h⟩ | ⟨-, -, -, h⟩
  · rw [h, lateLine_eq]
    split <;> rfl
  · rw [h, spyLine_eq, Emits.value_map, Emits.value_bind, heed]
    split
    · exact ticks_finalize _
    · rfl
  · rw [h]
    rfl
  · rw [h, value_plainLine]
    rfl

namespace Reruns

variable {x y : Emits Session} {f g : Session → Emits Session}

theorem pure (s : Session) : Reruns r clock s (Pure.pure s) (Pure.pure (s.renumber r)) :=
  ⟨rfl, rfl, stamped_nil clock s.ticks⟩

/-- A step that reads the clock once. -/
theorem of_mirrors (h : Mirrors r (clock s.ticks) (·.renumber r) x y)
    (hticks : x.value.ticks = s.ticks + 1) : Reruns r clock s x y := by
  refine ⟨h.value, ?_, ?_⟩
  · simp only [h.events, List.map_map, Function.comp_def, untimed_retime, untimed_renumber]
  · rw [hticks, h.events]
    exact stamped_retimed clock s.ticks (·.renumber r) x.events

theorem bind (h : Reruns r clock s x y)
    (hf : Reruns r clock x.value (f x.value) (g (x.value.renumber r))) :
    Reruns r clock s (x >>= f) (y >>= g) := by
  refine ⟨?_, ?_, ?_⟩
  · rw [Emits.value_bind, Emits.value_bind, h.value, hf.value]
  · simp only [Emits.events_bind, h.value, List.map_append, h.events, hf.events]
  · rw [Emits.events_bind, Emits.value_bind, h.value]
    exact stamped_append h.times hf.times

end Reruns

theorem reruns_finish (hm : ∀ m ∈ s.matchers, m.IsBuiltIn) :
    Reruns r clock s (s.finish o) ((s.renumber r).finish (o.withClock clock)) := by
  by_cases hfin : s.finished = true
  · rw [finish_of_finished hfin, finish_of_finished (s := s.renumber r) hfin]
    exact .pure s
  · have hfin : s.finished = false := by simpa using hfin
    refine .of_mirrors (mirrors_finish hm) ?_
    rw [finish_eq hfin, Emits.value_bind, value_flush]
    exact ticks_finalize { s with finished := true, ticks := s.ticks + 1 }

theorem reruns_parseAll (hr : r.KeepsEntries) (ho : o.BuiltIn) (hm : ∀ m ∈ s.matchers, m.IsBuiltIn)
    (cursor : Cursor) :
    Reruns r clock s (s.parseAll o cursor) ((s.renumber r).parseAll (o.withClock clock) cursor) := by
  fun_induction handed o s cursor with
  | case1 s cursor h =>
    rw [parseAll_of_end h, parseAll_of_end h]
    exact .pure s
  | case2 s cursor raw rest h x ih =>
    have hline : Mirrors r (clock s.ticks) (Prod.map id (Prod.map (·.renumber r) id))
        (s.parseLine o raw rest) ((s.renumber r).parseLine (o.withClock clock) raw rest) :=
      mirrors_parseLine hr ho hm raw rest
    have hsession : Reruns r clock s ((·.2.1) <$> s.parseLine o raw rest)
        ((·.2.1) <$> (s.renumber r).parseLine (o.withClock clock) raw rest) :=
      .of_mirrors (hline.map rfl) (ticks_parseLine o s raw rest)
    -- the matchers of both read ahead alike, so the next line is the same
    have hcursor : ((s.renumber r).parseLine (o.withClock clock) raw rest).value.2.2 =
        x.value.2.2 := congrArg (·.2.2) hline.value
    rw [parseAll_of_next h, parseAll_of_next h, hcursor]
    exact hsession.bind (ih (isBuiltIn_call hm (.line raw rest)))

theorem reruns_run (hr : r.KeepsEntries) (ho : o.BuiltIn) (hm : ∀ m ∈ s.matchers, m.IsBuiltIn)
    (lines : List String) :
    Reruns r clock s (s.run o lines) ((s.renumber r).run (o.withClock clock) lines) := by
  have hall : Reruns r clock s (s.parseAll o (.ofLines lines))
      ((s.renumber r).parseAll (o.withClock clock) (.ofLines lines)) :=
    reruns_parseAll hr ho hm (.ofLines lines)
  have hkept : ∀ m ∈ (s.parseAll o (.ofLines lines)).value.matchers, m.IsBuiltIn := by
    rw [parseAll_eq_calls]
    exact isBuiltIn_calls hm _
  exact hall.bind (reruns_finish hkept)

/-! ## Main results -/

/-- Under another number and with another clock a session emits the same events up to their times,
and ends with the same context, with every number of an id replaced; its times are what the clock
answers, one reading after the other. -/
theorem run_under (settings : Settings) (clock clock' : Nat → Nat) (m : Nat)
    (lines : List String) {r : Renumbering} (hr : r.KeepsEntries) :
    let x := (start settings (.fresh m)).run (.ofSettings settings clock) lines
    let y := (start settings (.fresh (r.session m))).run (.ofSettings settings clock') lines
    y.events.map untimed = (x.events.map untimed).map (·.renumber r) ∧
      y.value.context = x.value.context.renumber r ∧
      Stamped clock' 0 x.value.ticks y.events := by
  have h : Reruns r clock' (start settings (.fresh m)) _ _ :=
    reruns_run hr (Setup.builtIn_ofSettings settings clock) (builtIn_start settings (.fresh m)) lines
  exact ⟨h.events, congrArg Session.context h.value, h.times⟩

/-- What a session does with some lines depends on its number and its clock only in the number in
its ids and in the times of its events; and these never decrease if the clock never goes back. -/
theorem run_replays (settings : Settings) (clock clock' : Nat → Nat) (m n : Nat)
    (lines : List String) :
    let x := (start settings (.fresh m)).run (.ofSettings settings clock) lines
    let y := (start settings (.fresh n)).run (.ofSettings settings clock') lines
    y.events.map untimed = (x.events.map untimed).map (·.replaceSession m n) ∧
      y.value.context = x.value.context.replaceSession m n ∧
      ((∀ k, clock' k ≤ clock' (k + 1)) →
        (y.events.filterMap Event.time?).Pairwise (· ≤ ·)) := by
  intro x y
  have hkept : (Renumbering.keepOnly m).session m = m := if_pos rfl
  have hexchanged : (Renumbering.exchange m n).session m = n := Equiv.swap_apply_left m n
  -- the run under m stays the same when every other number is changed, so it has none but m
  have hself := run_under settings clock clock m lines (r := .keepOnly m) fun _ => rfl
  have hother := run_under settings clock clock' m lines (r := .exchange m n) fun _ => rfl
  rw [hkept] at hself
  rw [hexchanged] at hother
  obtain ⟨hevents, hcontext, -⟩ := hself
  obtain ⟨hevents', hcontext', htimes⟩ := hother
  refine ⟨?_, ?_, fun hclock => pairwise_of_stamped htimes (monotone_nat_of_le_succ hclock)⟩
  · rw [hevents']
    exact map_eq_of_fixed (fun _ => Event.renumber_exchange) hevents.symm
  · rw [hcontext']
    exact Context.renumber_exchange hcontext.symm

end Session

end BuildTree
