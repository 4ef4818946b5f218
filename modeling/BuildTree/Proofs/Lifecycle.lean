import BuildTree.Proofs.Calls
import BuildTree.Proofs.Stream

/-!
# Starts and finishes of entries

The stream tells exactly what is live: an entry that is live has only started, and one that
is not live any more has started and then finished, once (`Recorded`).  What an event hangs
under is the session or an entry that is open at that moment (`Attached`).

    the events of an entry id in a run     none, or starts and then one finish  (run_entry_closed)
    live entries after any calls           the open ids of the stream so far    (calls_live_iff_open)
-/

namespace BuildTree

open Execution Events

/-! ## Algorithm -/

/-- Whether, after some events, an id is the root of the tree or an open entry. -/
def Hangable (root : EventId) (es : List Event) (i : EventId) : Prop :=
  i = root ∨ (∃ s q, i = .entry s q) ∧ isOpen es i = true

/-- What an event hangs under is there: for outputs, messages, starts of named nodes, and the
first start of an entry. -/
def Attached (root : EventId) (es : List Event) : Event → Prop
  | .output p _ => Hangable root es p
  | .message p .. => Hangable root es p
  | .started (.named _) p .. => ∃ j, p = some j ∧ Hangable root es j
  | .started i p .. => (history es i).any isStart = true ∨ ∃ j, p = some j ∧ Hangable root es j
  | .finished .. => True

/-- The events so far, of one entry id after another, tell what is live in a context. -/
structure Recorded (c : Context) (es : List Event) : Prop where
  live : ∀ e ∈ c.live, Opened e.id (some e.parent.id) e.name (history es e.id)
  done : ∀ s q, (∀ e ∈ c.live, e.id ≠ .entry s q) → history es (.entry s q) = [] ∨
    ∃ parent name, Closed (.entry s q) parent name (history es (.entry s q))
  fresh : ∀ q, c.nextSeq ≤ q → history es (.entry c.session q) = []

/-! ## Lemmas -/

section
variable {o : Tracker.Options} {K : Entry → Prop} {t t' : Tracker} {c : Context}
  {es fs : List Event} {e : Event} {i : EventId}

theorem recorded_fresh (session : Nat) : Recorded (.fresh session) [] :=
  ⟨fun _ he => absurd he List.not_mem_nil, fun _ _ _ => Or.inl rfl, fun _ _ => rfl⟩

/-- Events that are not about entries leave the record as it is. -/
theorem Recorded.concat_of_ne (hr : Recorded c es) (he : ∀ s q, e.id? ≠ some (.entry s q))
    (hn : c.Numbered) : Recorded c (es ++ [e]) := by
  have hsame : ∀ s q, history (es ++ [e]) (.entry s q) = history es (.entry s q) :=
    fun s q => history_concat_of_ne es (he s q)
  refine ⟨fun x hx => ?_, fun s q hsq => ?_, fun q hq => ?_⟩
  · obtain ⟨q, -, hid⟩ := hn.issued x hx
    have hx := hr.live x hx
    rw [hid] at hx ⊢
    rwa [hsame]
  · rw [hsame]
    exact hr.done s q hsq
  · rw [hsame]
    exact hr.fresh q hq

theorem Recorded.starts (hr : Recorded c es) (hn : c.Numbered) (kind : EntryKind)
    (thread : Nat) (name : String) (parent : Parent) (now : Nat) :
    Recorded (c.create kind thread name parent).1
      (es ++ [(c.create kind thread name parent).2.started now]) := by
  have hsame : ∀ i, i ≠ .entry c.session c.nextSeq →
      history (es ++ [(c.create kind thread name parent).2.started now]) i = history es i :=
    fun i hi => history_concat_of_ne es fun h => hi (Option.some.inj h).symm
  refine ⟨fun x hx => ?_, fun s q hsq => ?_, fun q hq => ?_⟩
  · rcases List.mem_append.1 hx with hx | hx
    · rw [hsame _ (hn.id_ne_next hx)]
      exact hr.live x hx
    · -- the number is new, so nothing was said about it before
      obtain rfl := List.mem_singleton.1 hx
      have hnew : history es (.entry c.session c.nextSeq) = [] := hr.fresh _ (Nat.le_refl _)
      show Opened (.entry c.session c.nextSeq) (some parent.id) name
        (history (es ++ [.started (.entry c.session c.nextSeq) (some parent.id) now name]) _)
      rw [history_append, hnew, history_started_self]
      exact opened_singleton now
  · rw [hsame _ fun h => hsq _ (List.mem_append_right _ List.mem_cons_self) h.symm]
    exact hr.done s q fun x hx => hsq x (List.mem_append_left _ hx)
  · have hq : c.nextSeq + 1 ≤ q := hq
    rw [hsame]
    · exact hr.fresh q (by omega)
    · intro h
      injection h with _ h
      omega

theorem Recorded.restarts (hr : Recorded c es) (hn : c.Numbered) {x : Entry} (hx : x ∈ c.live)
    (now : Nat) : Recorded c (es ++ [x.started now]) := by
  have hsame : ∀ i, i ≠ x.id → history (es ++ [x.started now]) i = history es i :=
    fun i hi => history_concat_of_ne es fun h => hi (Option.some.inj h).symm
  refine ⟨fun y hy => ?_, fun s q hsq => ?_, fun q hq => ?_⟩
  · by_cases hyx : y.id = x.id
    · obtain rfl := hn.eq_of_id_eq hy hx hyx
      rw [history_append]
      simpa [Execution.Entry.started] using (hr.live y hy).concat now
    · rw [hsame _ hyx]
      exact hr.live y hy
  · rw [hsame _ fun h => hsq x hx h.symm]
    exact hr.done s q hsq
  · rw [hsame _ fun h => hn.id_ne_of_le hx hq h.symm]
    exact hr.fresh q hq

theorem Recorded.finishes (hr : Recorded c es) (hn : c.Numbered) {x : Entry} (hx : x ∈ c.live)
    (now : Nat) (outcome : Outcome) :
    Recorded (c.complete x) (es ++ [x.finished now outcome]) := by
  have hsame : ∀ i, i ≠ x.id → history (es ++ [x.finished now outcome]) i = history es i :=
    fun i hi => history_concat_of_ne es fun h => hi (Option.some.inj h).symm
  refine ⟨fun y hy => ?_, fun s q hsq => ?_, fun q hq => ?_⟩
  · obtain ⟨hy, hyx⟩ := (hn.mem_complete hx).1 hy
    rw [hsame _ fun h => hyx (hn.eq_of_id_eq hy hx h)]
    exact hr.live y hy
  · by_cases hid : x.id = .entry s q
    · right
      refine ⟨some x.parent.id, x.name, history es x.id, now, outcome, ?_, ?_⟩
      · exact hid ▸ hr.live x hx
      · rw [← hid, history_append]
        simp [Execution.Entry.finished]
    · rw [hsame _ fun h => hid h.symm]
      refine hr.done s q fun y hy hyid => ?_
      have hyx : y ≠ x := fun h => hid (h ▸ hyid)
      exact hsq y ((hn.mem_complete hx).2 ⟨hy, hyx⟩) hyid
  · have hq : c.nextSeq ≤ q := hq
    exact (hsame _ fun h => hn.id_ne_of_le hx hq h.symm).trans (hr.fresh q hq)

theorem Tracker.Move.recorded (hv : t.Valid o) (hr : Recorded t.context es)
    (h : Move o K t fs t') : Recorded t'.context (es ++ fs) := by
  have hn := hv.numbered
  cases h with
  | starts kind thread name parent now hp hk => exact hr.starts hn kind thread name parent now
  | restarts now he => exact hr.restarts hn he now
  | finishes now outcome he hd => exact hr.finishes hn he now outcome
  | fetches now => exact hr.concat_of_ne (by simp [Download.started, Event.id?, EventId.download]) hn
  | fetched now => exact hr.concat_of_ne (by simp [Download.finished, Event.id?, EventId.download]) hn
  | remarks h => exact hr.concat_of_ne (by cases h <;> simp [Event.id?, Context.sessionId]) hn
  | marks c hs hq hl =>
    rw [List.append_nil]
    exact ⟨by simpa only [hl] using hr.live, by simpa only [hl] using hr.done,
      by simpa only [hs, hq] using hr.fresh⟩

/-- What a context holds, something can hang under. -/
theorem Recorded.hangable (hr : Recorded c es) (hn : c.Numbered) (hi : c.Holds i) :
    Hangable c.sessionId es i := by
  rcases hi with rfl | ⟨e, he, rfl⟩
  · exact Or.inl rfl
  · obtain ⟨q, -, hid⟩ := hn.issued e he
    exact Or.inr ⟨⟨_, _, hid⟩, isOpen_of_opened (hr.live e he)⟩

theorem Tracker.Move.attached (hv : t.Valid o) (hr : Recorded t.context es)
    (h : Move o K t fs t') (hes : Each (Attached t.context.sessionId) es) :
    Each (Attached t.context.sessionId) (es ++ fs) := by
  have hang : ∀ {i}, t.context.Holds i → Hangable t.context.sessionId es i :=
    hr.hangable hv.numbered
  cases h with
  | starts kind thread name parent now hp hk =>
    exact each_concat.2 ⟨hes, Or.inr ⟨_, rfl, hang hp⟩⟩
  | @restarts e now he =>
    refine each_concat.2 ⟨hes, ?_⟩
    obtain ⟨q, -, hid⟩ := hv.numbered.issued e he
    have hopen := isOpen_of_opened (hr.live e he)
    rw [isOpen, Bool.and_eq_true] at hopen
    rw [Entry.started, hid] at *
    exact Or.inl hopen.1
  | finishes now outcome he hd => exact each_concat.2 ⟨hes, trivial⟩
  | @fetches e d now he hkind hname hid hd =>
    exact each_concat.2 ⟨hes, _, rfl, hid ▸ hang (Context.holds_of_live he)⟩
  | fetched now outcome hd => exact each_concat.2 ⟨hes, trivial⟩
  | remarks h =>
    refine each_concat.2 ⟨hes, ?_⟩
    cases h with
    | output text hp => exact hang hp
    | message severity title text position hp => exact hang hp
    | failureStarted now error hp => exact ⟨_, rfl, hang hp⟩
    | failureFinished p now error outcome => trivial
    | sessionFinished now name outcome => trivial
  | marks c hs hn hl => rwa [List.append_nil]

end

/-! ## Sessions -/

/-- What is known of a tracker and of the events of its session so far. -/
structure Told (o : Tracker.Options) (n : Nat) (es : List Event) (t : Tracker) : Prop where
  valid : t.Valid o
  session : t.context.session = n
  recorded : Recorded t.context es
  attached : Each (Attached (.session n)) es

theorem Told.move {o : Tracker.Options} {K : Entry → Prop} {n : Nat} {es fs : List Event}
    {t t' : Tracker} (h : Told o n es t) (hm : Tracker.Move o K t fs t') :
    Told o n (es ++ fs) t' := by
  obtain ⟨hv, rfl, hr, ha⟩ := h
  exact ⟨hm.valid hv, hm.session, hm.recorded hv hr, hm.attached hv hr ha⟩

namespace Session

variable (settings : Settings) (clock : Nat → Nat) (n : Nat)

theorem told_calls (cs : List Call) :
    let x := (start settings (.fresh n)).calls (.ofSettings settings clock) cs
    Told (Setup.ofSettings settings clock).toOptions n x.events x.value.tracker := by
  have hfresh : Told (Setup.ofSettings settings clock).toOptions n [] (.fresh n) :=
    ⟨Tracker.valid_fresh _ n, rfl, recorded_fresh n, each_nil⟩
  exact calls_keep (K := fun _ => True) settings clock n cs (fun _ _ _ => trivial) hfresh
    fun h hm => h.move hm

@[simp] theorem finished_finalize (s : Session) : s.finalize.value.finished = s.finished := by
  unfold finalize
  split <;> rfl

/-- A line never counts as the end of the output. -/
theorem finished_parseLine (o : Setup) (s : Session) (raw : String) (cursor : Cursor) :
    (s.parseLine o raw cursor).value.2.1.finished = s.finished := by
  rcases parseLine_cases o s raw cursor with
    ⟨-, h⟩ | ⟨-, -, h⟩ | ⟨-, -, -, h⟩ | ⟨-, -, -, h⟩
  · rw [h, Emits.value_map, lateLine]
    dsimp only
    split <;> rfl
  · rw [h, Emits.value_map]
    simp only [spyLine, Emits.value_bind]
    split
    · exact finished_finalize _
    · rfl
  · rw [h]
    rfl
  · rw [h, plainLine]
    split <;> simp only [Emits.value_bind] <;> split <;> rfl

theorem finished_lineCalls (o : Setup) (s : Session) (ls : List (String × Cursor)) :
    (s.calls o (lineCalls ls)).value.finished = s.finished := by
  induction ls generalizing s with
  | nil => rfl
  | cons l ls ih => exact (ih _).trans (finished_parseLine o s l.1 l.2)

theorem live_finish (o : Setup) (s : Session) (h : s.finished = false) :
    (s.finish o).value.context.live = [] := by
  rw [context, tracker_finish h, List.eq_nil_iff_forall_not_mem]
  intro e he
  obtain ⟨hlive, hnot⟩ := Context.of_mem_foldl_complete he
  exact hnot ((Context.liveReversed_perm _).mem_iff.2 hlive)

/-! ## Top theorems -/

/-- In a whole run, whatever the lines are, every entry that starts finishes, once and after its
starts, under the same parent and with the same name; no other entry finishes, and none is live
at the end. -/
theorem run_entry_closed (lines : List String) :
    let x := (start settings (.fresh n)).run (.ofSettings settings clock) lines
    (∀ s q, history x.events (.entry s q) = [] ∨
      ∃ parent name, Closed (.entry s q) parent name (history x.events (.entry s q))) ∧
    x.value.context.live = [] := by
  rw [run_eq_calls]
  intro x
  have hlive : x.value.context.live = [] := by
    simp only [x, runCalls, calls_append]
    exact live_finish _ _ (finished_lineCalls ..)
  refine ⟨fun s q => ?_, hlive⟩
  refine (told_calls settings clock n _).recorded.done s q fun e he => ?_
  exact absurd (hlive ▸ he) List.not_mem_nil

/-- After any calls the live entries are the open ones of the stream, and everything was emitted
under the session or an entry open at that moment. -/
theorem calls_live_iff_open (cs : List Call) :
    let x := (start settings (.fresh n)).calls (.ofSettings settings clock) cs
    (∀ i, (∃ e ∈ x.value.context.live, e.id = i) ↔
      (∃ s q, i = .entry s q) ∧ isOpen x.events i = true) ∧
    Each (Attached (.session n)) x.events := by
  intro x
  obtain ⟨hv, -, hr, ha⟩ := told_calls settings clock n cs
  refine ⟨fun i => ?_, ha⟩
  constructor
  · rintro ⟨e, he, rfl⟩
    obtain ⟨q, -, hid⟩ := hv.numbered.issued e he
    exact ⟨⟨_, _, hid⟩, isOpen_of_opened (hr.live e he)⟩
  · rintro ⟨⟨s, q, rfl⟩, hopen⟩
    by_contra hno
    rcases hr.done s q fun e he hid => hno ⟨e, he, hid⟩ with hnil | ⟨parent, name, hclosed⟩
    · rw [isOpen_of_history_nil hnil] at hopen
      cases hopen
    · rw [isOpen_of_closed hclosed] at hopen
      cases hopen

end Session

end BuildTree
