import BuildTree.Session

/-!
# The built-in matchers

What a built-in matcher emits are messages under the parent it was given, and a list of
built-in matchers stays one whatever is offered to it.  A session without matchers of the
host has built-in ones only.

    offer under p          emits messages under p
    finalizeAll session    emits messages under the session
-/

namespace BuildTree

open Execution

/-- An event that shows a diagnostic under a parent. -/
def Event.IsMessage (parent : EventId) (e : Event) : Prop :=
  ∃ severity title text position, e = .message parent severity title text position

/-- A filter that lets no message through lets nothing of a list of them through. -/
theorem filter_of_messages {f : Event → Bool} {es : List Event} {p : EventId}
    (hf : ∀ severity title text position, f (.message p severity title text position) = false)
    (h : ∀ e ∈ es, e.IsMessage p) : es.filter f = [] := by
  rw [List.filter_eq_nil_iff]
  intro e he
  obtain ⟨severity, title, text, position, rfl⟩ := h e he
  simp [hf]

/-! ## Error matchers -/

namespace ErrorMatcher

theorem messages_offer {ms : List ErrorMatcher} (hms : ∀ m ∈ ms, m = compilationFailure)
    (context : Context) (parent : EventId) (kind : Spy.Kind) (error : String) :
    ∀ e ∈ (offer context parent kind error ms).events, e.IsMessage parent := by
  have hblock : ∀ e ∈ (Block.tryConsume parent error).events, e.IsMessage parent := by
    intro e he
    obtain ⟨d, -, rfl⟩ := List.mem_map.1 he
    exact ⟨_, _, _, _, rfl⟩
  induction ms with
  | nil => intro e he; cases he
  | cons m ms ih =>
    have hrest := ih fun m' hm' => hms m' (List.mem_cons_of_mem _ hm')
    have hm := hms m List.mem_cons_self
    subst hm
    intro e he
    unfold offer at he
    split at he
    · simp only [Emits.events_bind, List.mem_append] at he
      rcases he with he | he
      · exact hblock e he
      · split at he
        · cases he
        · exact hrest e he
    · exact hrest e he

end ErrorMatcher

/-! ## Line matchers -/

/-- A line is let pass, or it becomes one message, which is counted. -/
theorem Javac.tryConsume_cases (tally : Tally) (parent : EventId) (line : Line) (cursor : Cursor) :
    tryConsume tally parent line cursor = pure (false, tally, cursor) ∨
    ∃ severity title text position rest,
      (tryConsume tally parent line cursor).value = (true, tally.count severity, rest) ∧
      (tryConsume tally parent line cursor).events =
        [.message parent severity title text position] := by
  unfold tryConsume
  split
  · exact Or.inr ⟨.error, _, _, _, cursor, rfl, rfl⟩
  · split
    · exact Or.inl rfl
    · exact Or.inr ⟨Severity.ofLevel line.level, _, _, _, _, rfl, rfl⟩

theorem Kotlin.tryConsume_cases (parent : EventId) (line : Line) :
    tryConsume parent line = pure false ∨
    ∃ severity title text position, (tryConsume parent line).value = true ∧
      (tryConsume parent line).events = [.message parent severity title text position] := by
  unfold tryConsume
  split
  · exact Or.inl rfl
  · exact Or.inr ⟨_, _, _, _, rfl, rfl⟩

namespace LineMatcher

def IsBuiltIn : LineMatcher → Prop
  | rule _ => False
  | _ => True

theorem isBuiltIn_builtIn (java kotlin : Bool) : ∀ m ∈ builtIn java kotlin, m.IsBuiltIn := by
  cases java <;> cases kotlin <;> simp [builtIn, IsBuiltIn]

/-- A built-in matcher leaves no trace of a line that it lets pass, and makes one message of a line
that it takes. -/
theorem tryConsume_cases {m : LineMatcher} (hm : m.IsBuiltIn) (context : Context)
    (parent : EventId) (line : Line) (cursor : Cursor) :
    let x := m.tryConsume context parent line cursor
    (x.value.1 = false ∧ x.events = [] ∧ x.value.2.2 = cursor) ∨
    (x.value.1 = true ∧ ∃ e, x.events = [e] ∧ e.IsMessage parent) := by
  cases m with
  | javac tally =>
    rcases Javac.tryConsume_cases tally parent line cursor with
      hpass | ⟨severity, title, text, position, rest, hvalue, hevents⟩
    · simp [tryConsume, hpass]
    · refine Or.inr ⟨by simp [tryConsume, hvalue], .message parent severity title text position,
        by simp [tryConsume, hevents], ⟨severity, title, text, position, rfl⟩⟩
  | kotlin =>
    rcases Kotlin.tryConsume_cases parent line with
      hpass | ⟨severity, title, text, position, hvalue, hevents⟩
    · simp [tryConsume, hpass]
    · refine Or.inr ⟨by simp [tryConsume, hvalue], .message parent severity title text position,
        by simp [tryConsume, hevents], ⟨severity, title, text, position, rfl⟩⟩
  | rule r => exact hm.elim

theorem messages_tryConsume {m : LineMatcher} (hm : m.IsBuiltIn) (context : Context)
    (parent : EventId) (line : Line) (cursor : Cursor) :
    ∀ e ∈ (m.tryConsume context parent line cursor).events, e.IsMessage parent := by
  intro e he
  rcases tryConsume_cases hm context parent line cursor with
    ⟨-, hevents, -⟩ | ⟨-, x, hevents, hx⟩
  · rw [hevents] at he
    cases he
  · rw [hevents] at he
    exact List.mem_singleton.1 he ▸ hx

theorem isBuiltIn_tryConsume {m : LineMatcher} (hm : m.IsBuiltIn) (context : Context)
    (parent : EventId) (line : Line) (cursor : Cursor) :
    (m.tryConsume context parent line cursor).value.2.1.IsBuiltIn := by
  cases m with
  | javac tally => trivial
  | kotlin => trivial
  | rule r => exact hm.elim

theorem messages_offer {ms : List LineMatcher} (hms : ∀ m ∈ ms, m.IsBuiltIn) (context : Context)
    (parent : EventId) (line : Line) (cursor : Cursor) :
    ∀ e ∈ (offer context parent line cursor ms).events, e.IsMessage parent := by
  induction ms generalizing cursor with
  | nil => intro e he; cases he
  | cons m ms ih =>
    have hrest := ih fun m' hm' => hms m' (List.mem_cons_of_mem _ hm')
    have hm := hms m List.mem_cons_self
    intro e he
    unfold offer at he
    split at he
    · simp only [Emits.events_bind, List.mem_append] at he
      rcases he with he | he
      · exact messages_tryConsume hm context parent line cursor e he
      · split at he
        · cases he
        · simp only [Emits.events_bind, Emits.events_pure, List.append_nil] at he
          exact hrest _ e he
    · simp only [Emits.events_bind, Emits.events_pure, List.append_nil] at he
      exact hrest _ e he

theorem isBuiltIn_offer {ms : List LineMatcher} (hms : ∀ m ∈ ms, m.IsBuiltIn) (context : Context)
    (parent : EventId) (line : Line) (cursor : Cursor) :
    ∀ m ∈ (offer context parent line cursor ms).value.2.1, m.IsBuiltIn := by
  induction ms generalizing cursor with
  | nil => intro m hm; cases hm
  | cons m ms ih =>
    have hrest := ih fun m' hm' => hms m' (List.mem_cons_of_mem _ hm')
    have hm := hms m List.mem_cons_self
    have hm' := isBuiltIn_tryConsume hm context parent line cursor
    unfold offer
    split
    · simp only [Emits.value_bind]
      split
      · exact List.forall_mem_cons.2 ⟨hm', fun x hx => hms x (List.mem_cons_of_mem _ hx)⟩
      · exact List.forall_mem_cons.2 ⟨hm', hrest _⟩
    · exact List.forall_mem_cons.2 ⟨hm, hrest _⟩

theorem messages_finalize {m : LineMatcher} (hm : m.IsBuiltIn) (session : EventId) :
    ∀ e ∈ (m.finalize session).events, e.IsMessage session := by
  intro e he
  cases m with
  | javac tally =>
    simp only [finalize, Emits.events_map] at he
    unfold Javac.finalize at he
    split at he
    · cases he
    · exact ⟨_, _, _, _, List.mem_singleton.1 he⟩
  | kotlin => cases he
  | rule r => exact hm.elim

theorem messages_finalizeAll {ms : List LineMatcher} (hms : ∀ m ∈ ms, m.IsBuiltIn)
    (session : EventId) : ∀ e ∈ (finalizeAll session ms).events, e.IsMessage session := by
  induction ms with
  | nil => intro e he; cases he
  | cons m ms ih =>
    intro e he
    simp only [finalizeAll, Emits.events_bind, Emits.events_pure, List.append_nil,
      List.mem_append] at he
    rcases he with he | he
    · exact messages_finalize (hms m List.mem_cons_self) session e he
    · exact ih (fun m' hm' => hms m' (List.mem_cons_of_mem _ hm')) e he

theorem isBuiltIn_finalizeAll {ms : List LineMatcher} (hms : ∀ m ∈ ms, m.IsBuiltIn)
    (session : EventId) : ∀ m ∈ (finalizeAll session ms).value, m.IsBuiltIn := by
  induction ms with
  | nil => intro m hm; cases hm
  | cons m ms ih =>
    have hm : (m.finalize session).value.IsBuiltIn := by
      cases m with
      | rule r => exact (hms _ List.mem_cons_self).elim
      | _ => trivial
    exact List.forall_mem_cons.2 ⟨hm, ih fun m' hm' => hms m' (List.mem_cons_of_mem _ hm')⟩

end LineMatcher

/-! ## Sessions -/

/-- No error matcher of the host is set up. -/
def Tracker.Options.BuiltIn (o : Tracker.Options) : Prop :=
  ∀ m ∈ o.errorMatchers, m = .compilationFailure

theorem Session.Setup.builtIn_ofSettings (s : Settings) (clock : Nat → Nat) :
    (Setup.ofSettings s clock).BuiltIn := by
  intro m hm
  have h : m ∈ if s.matchers.compilationFailure then [ErrorMatcher.compilationFailure] else [] := by
    simpa [ofSettings] using hm
  split at h
  · exact List.mem_singleton.1 h
  · cases h

theorem Session.builtIn_start (s : Settings) (context : Context) :
    ∀ m ∈ (start s context).matchers, m.IsBuiltIn := by
  simpa [start] using LineMatcher.isBuiltIn_builtIn s.matchers.javac s.matchers.kotlin

end BuildTree
