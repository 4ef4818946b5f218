import BuildTree.Proofs.Downloads
import BuildTree.Proofs.Observers

/-!
# Streams up to times and numbers

The numbers of sessions and entries are names: two streams tell the same if the ids of the one
are those of the other after a renumbering, which gives different numbers to different ones.  What
is compared are the starts and finishes of entries and downloads, without their times (`trace`).

    trace (es.map (renumber r)) = (trace es).map (renumber r)      (trace_renumber)
-/

namespace BuildTree

open Execution Events

/-! ## Algorithm -/

/-- New numbers for sessions and for the entries of a session, different ones for different ones. -/
structure Renumbering where
  session : Nat → Nat
  entry : Nat → Nat
  session_injective : Function.Injective session
  entry_injective : Function.Injective entry

def EventId.renumber (r : Renumbering) : EventId → EventId
  | .session n => .session (r.session n)
  | .entry s q => .entry (r.session s) (r.entry q)
  | .named text => .named text

def EventId.isEntry : EventId → Bool
  | .entry .. => true
  | _ => false

namespace Event

def renumber (r : Renumbering) : Event → Event
  | .started i parent time name => .started (i.renumber r) (parent.map (·.renumber r)) time name
  | .finished i parent time name outcome =>
    .finished (i.renumber r) (parent.map (·.renumber r)) time name outcome
  | .output parent text => .output (parent.renumber r) text
  | .message parent severity title text position =>
    .message (parent.renumber r) severity title text position

/-- Whether an event starts or finishes an entry, or the download that it names. -/
def isTracked : Event → Bool
  | .started i _ _ name => i.isEntry || i == .download name
  | .finished i _ _ name _ => i.isEntry || i == .download name
  | _ => false

end Event

/-- The starts and finishes of entries and downloads in a stream, without their times. -/
def Events.trace (es : List Event) : List Event := (es.filter Event.isTracked).map untimed

def Execution.Parent.renumber (r : Renumbering) (p : Parent) : Parent := ⟨p.kind, p.id.renumber r⟩

def Execution.Entry.renumber (r : Renumbering) (e : Entry) : Entry :=
  { e with id := e.id.renumber r, parent := e.parent.renumber r }

def Download.renumber (r : Renumbering) (d : Download) : Download := ⟨d.coord, d.node.renumber r⟩

/-! ## Lemmas -/

section
variable {r : Renumbering} {i j : EventId} {e : Entry} {d : Download} {es fs : List Event}
  {now later : Nat} {outcome : Outcome}

theorem EventId.renumber_inj : i.renumber r = j.renumber r ↔ i = j := by
  refine ⟨fun h => ?_, congrArg _⟩
  cases i <;> cases j <;>
    simp_all [renumber, r.session_injective.eq_iff, r.entry_injective.eq_iff]

theorem EventId.renumber_eq_named {text : String} : i.renumber r = .named text ↔ i = .named text := by
  cases i <;> simp [renumber]

@[simp] theorem EventId.isEntry_renumber : (i.renumber r).isEntry = i.isEntry := by
  cases i <;> rfl

/-- One renumbering after the other. -/
theorem EventId.renumber_renumber {r' r'' : Renumbering}
    (hs : ∀ n, r'.session (r.session n) = r''.session n)
    (he : ∀ q, r'.entry (r.entry q) = r''.entry q) (i : EventId) :
    (i.renumber r).renumber r' = i.renumber r'' := by
  cases i <;> simp [renumber, hs, he]

theorem Event.renumber_renumber {r' r'' : Renumbering}
    (hs : ∀ n, r'.session (r.session n) = r''.session n)
    (he : ∀ q, r'.entry (r.entry q) = r''.entry q) (e : Event) :
    (e.renumber r).renumber r' = e.renumber r'' := by
  have hid := EventId.renumber_renumber hs he
  cases e <;> simp [renumber, hid, Function.comp_def]

@[simp] theorem thread_renumber : (e.renumber r).thread = e.thread := rfl
@[simp] theorem id_renumber : (e.renumber r).id = e.id.renumber r := rfl

@[simp] theorem trace_append : trace (es ++ fs) = trace es ++ trace fs := by
  simp [trace]

/-- Starts and finishes of other things, and what is shown, leave no trace. -/
theorem trace_of_lifecycle_nil (h : lifecycle es = []) : trace es = [] := by
  rw [trace, List.map_eq_nil_iff, List.filter_eq_nil_iff]
  intro e he
  have hnot := List.filter_eq_nil_iff.1 h e he
  cases e <;> simp_all [Event.isLifecycle, Event.id?, Event.isTracked]

theorem isTracked_renumber (e : Event) : (e.renumber r).isTracked = e.isTracked := by
  have hnamed : ∀ (i : EventId) (text : String), (i.renumber r == .named text) = (i == .named text) :=
    fun i text => by rw [Bool.eq_iff_iff, beq_iff_eq, beq_iff_eq, EventId.renumber_eq_named]
  cases e with
  | started i parent time name =>
    simp only [Event.renumber, Event.isTracked, EventId.isEntry_renumber, EventId.download, hnamed]
  | finished i parent time name outcome =>
    simp only [Event.renumber, Event.isTracked, EventId.isEntry_renumber, EventId.download, hnamed]
  | _ => rfl

theorem isTracked_untimed (e : Event) : (untimed e).isTracked = e.isTracked := by cases e <;> rfl

theorem untimed_renumber (e : Event) : untimed (e.renumber r) = (untimed e).renumber r := by
  cases e <;> rfl

theorem untimed_untimed (e : Event) : untimed (untimed e) = untimed e := by cases e <;> rfl

theorem trace_untimed (es : List Event) : trace (es.map untimed) = trace es := by
  simp only [trace, List.filter_map, List.map_map, Function.comp_def, isTracked_untimed,
    untimed_untimed]

theorem trace_renumber (es : List Event) :
    trace (es.map (·.renumber r)) = (trace es).map (·.renumber r) := by
  simp only [trace, List.filter_map, List.map_map, Function.comp_def, isTracked_renumber,
    untimed_renumber]

/-- Streams that are the same up to times and numbers leave the same traces. -/
theorem trace_of_untimed_eq
    (h : fs.map untimed = (es.map untimed).map (·.renumber r)) :
    trace fs = (trace es).map (·.renumber r) := by
  rw [← trace_untimed fs, h, trace_renumber, trace_untimed]

end

end BuildTree
