import BuildTree.Event
import Mathlib.Data.List.Basic

/-!
# Streams of events

What a list of events says about one id of the tree, and properties that an event has when
it is emitted, that is, together with the events before it.

    history es i   the starts and finishes of i, in order
    isOpen es i    i has started and has not finished
    Each P es      P holds of every event of es and the events before it

* `Opened i p n h`: a history of starts only, all under `p` and with the name `n`.
* `Closed i p n h`: such a history, and after it one finish under `p` with the name `n`.
-/

namespace BuildTree.Events

/-! ## Algorithm -/

def isStart : Event → Bool
  | .started .. => true
  | _ => false

/-- An event without its time. -/
def untimed : Event → Event
  | .started i parent _ name => .started i parent 0 name
  | .finished i parent _ name outcome => .finished i parent 0 name outcome
  | e => e

/-- The starts and finishes of one id, in order. -/
def history (es : List Event) (i : EventId) : List Event := es.filter (·.id? == some i)

/-- Whether an id has started, and not finished. -/
def isOpen (es : List Event) (i : EventId) : Bool :=
  (history es i).any isStart && (history es i).all isStart

/-- A property that every event has together with the events before it. -/
def Each (P : List Event → Event → Prop) (es : List Event) : Prop :=
  ∀ pre e post, es = pre ++ e :: post → P pre e

/-- One or more starts of an id, which agree on the parent and on the name. -/
def Opened (i : EventId) (parent : Option EventId) (name : String) (h : List Event) : Prop :=
  h ≠ [] ∧ ∀ e ∈ h, ∃ time, e = .started i parent time name

/-- One or more starts of an id and then its one finish, which agree on the parent and on the
name. -/
def Closed (i : EventId) (parent : Option EventId) (name : String) (h : List Event) : Prop :=
  ∃ starts time outcome, Opened i parent name starts ∧
    h = starts ++ [.finished i parent time name outcome]

/-! ## Lemmas -/

section
variable {P : List Event → Event → Prop} {es : List Event} {e : Event}

theorem each_nil : Each P [] := by
  intro pre e post h
  simp at h

theorem each_concat : Each P (es ++ [e]) ↔ Each P es ∧ P es e := by
  constructor
  · intro h
    refine ⟨fun pre x post hx => h pre x (post ++ [e]) (by simp [hx]), h es e [] rfl⟩
  · rintro ⟨hes, he⟩ pre x post hx
    rcases List.eq_nil_or_concat post with rfl | ⟨post, y, rfl⟩
    · obtain ⟨rfl, hxe⟩ := List.append_inj' hx rfl
      cases hxe
      exact he
    · have hx : es ++ [e] = (pre ++ x :: post) ++ [y] := by simpa using hx
      exact hes pre x post (List.append_inj' hx rfl).1

end

section
variable {i j : EventId} {parent : Option EventId} {name : String} {h : List Event}

theorem history_append (es fs : List Event) (i : EventId) :
    history (es ++ fs) i = history es i ++ history fs i := List.filter_append ..

@[simp] theorem history_started_self (parent : Option EventId) (time : Nat) (name : String) :
    history [.started i parent time name] i = [.started i parent time name] := by
  simp [history, Event.id?]

@[simp] theorem history_finished_self (parent : Option EventId) (time : Nat) (name : String)
    (outcome : Outcome) :
    history [.finished i parent time name outcome] i =
      [.finished i parent time name outcome] := by
  simp [history, Event.id?]

/-- An event of another id, or of none, leaves the history as it is. -/
theorem history_concat_of_ne {e : Event} (es : List Event) (he : e.id? ≠ some i) :
    history (es ++ [e]) i = history es i := by
  rw [history_append]
  simp [history, he]

theorem Opened.concat (ho : Opened i parent name h) (time : Nat) :
    Opened i parent name (h ++ [.started i parent time name]) := by
  refine ⟨by simp, fun e he => ?_⟩
  rcases List.mem_append.1 he with he | he
  · exact ho.2 e he
  · exact ⟨time, List.mem_singleton.1 he⟩

theorem opened_singleton (time : Nat) :
    Opened i parent name [.started i parent time name] :=
  ⟨by simp, fun _ he => ⟨time, List.mem_singleton.1 he⟩⟩

theorem isOpen_of_opened {es : List Event} (ho : Opened i parent name (history es i)) :
    isOpen es i = true := by
  obtain ⟨hne, hall⟩ := ho
  have hstart : ∀ e ∈ history es i, isStart e = true := by
    intro e he
    obtain ⟨time, rfl⟩ := hall e he
    rfl
  obtain ⟨e, he⟩ := List.exists_mem_of_ne_nil _ hne
  rw [isOpen, Bool.and_eq_true, List.any_eq_true, List.all_eq_true]
  exact ⟨⟨e, he, hstart e he⟩, hstart⟩

theorem isOpen_of_closed {es : List Event} (hc : Closed i parent name (history es i)) :
    isOpen es i = false := by
  obtain ⟨starts, time, outcome, -, hes⟩ := hc
  simp [isOpen, hes, isStart]

theorem isOpen_of_history_nil {es : List Event} (h : history es i = []) : isOpen es i = false := by
  simp [isOpen, h]

end

end BuildTree.Events
