import BuildTree.Proofs.Lifecycle
import BuildTree.Proofs.Observers

/-!
# Snapshots of a tracker

The lifecycle events of a tracker depend on the numbers, the live entries, the open downloads and
the two marks of the session (`Snapshot`).  So what messages do is said from one snapshot to the
next, and chained.

    Leads o x ms es y → Leads o y ms' es' z → Leads o x (ms ++ ms') (es ++ es') z    (Leads.append)
-/

namespace BuildTree

open Execution Spy Events

/-! ## Algorithm -/

/-- The starts and finishes of a stream, without their times. -/
def Events.outline (es : List Event) : List Event := (lifecycle es).map untimed

namespace Tracker

/-- What the lifecycle events to come depend on. -/
structure Snapshot where
  session : Nat
  next : Nat
  live : List Entry := []
  downloads : List Download := []
  failed : Bool := false
  ended : Bool := false

def snapshot (t : Tracker) : Snapshot :=
  ⟨t.context.session, t.context.nextSeq, t.context.live, t.downloads, t.context.failed,
    t.context.ended⟩

/-- Messages one after the other; the clock is read for each. -/
def applyAll (o : Options) (clock : Nat → Nat) : Nat → Tracker → List Message → Emits Tracker
  | _, t, [] => pure t
  | k, t, m :: ms => do
    let t ← t.apply o m (clock k)
    applyAll o clock (k + 1) t ms

/-- From one snapshot, an operation leads to another, with these starts and finishes. -/
def Does (before : Snapshot) (operation : Tracker → Nat → Emits Tracker) (es : List Event)
    (after : Snapshot) : Prop :=
  ∀ (t : Tracker) (now : Nat), t.snapshot = before →
    outline (operation t now).events = es ∧ (operation t now).value.snapshot = after

/-- From one snapshot, messages lead to another, with these starts and finishes. -/
def Leads (o : Options) (before : Snapshot) (ms : List Message) (es : List Event)
    (after : Snapshot) : Prop :=
  ∀ (clock : Nat → Nat) (k : Nat) (t : Tracker), t.snapshot = before →
    outline (t.applyAll o clock k ms).events = es ∧
      (t.applyAll o clock k ms).value.snapshot = after

/-! ## Lemmas -/

section
variable {o : Options} {x y z : Snapshot} {ms ms' : List Message} {es es' : List Event} {m : Message}

@[simp] theorem outline_append (es fs : List Event) : outline (es ++ fs) = outline es ++ outline fs := by
  simp [outline]

@[simp] theorem outline_nil : outline [] = [] := rfl

@[simp] theorem outline_started (i : EventId) (parent : Option EventId) (now : Nat) (name : String)
    (es : List Event) :
    outline (.started i parent now name :: es) = .started i parent 0 name :: outline es := rfl

@[simp] theorem outline_finished (i : EventId) (parent : Option EventId) (now : Nat) (name : String)
    (outcome : Outcome) (es : List Event) :
    outline (.finished i parent now name outcome :: es) =
      .finished i parent 0 name outcome :: outline es := rfl

theorem outline_reportError (ho : o.BuiltIn) (t : Tracker) (m : Message) :
    outline (t.reportError o m).events = [] := by
  rw [outline, lifecycle_reportError t m ho, List.map_nil]

theorem Leads.nil : Leads o x [] [] x := fun _ _ _ h => ⟨rfl, h⟩

theorem applyAll_append (clock : Nat → Nat) (k : Nat) (t : Tracker) (ms ms' : List Message) :
    t.applyAll o clock k (ms ++ ms') =
      t.applyAll o clock k ms >>= fun t => t.applyAll o clock (k + ms.length) ms' := by
  induction ms generalizing k t with
  | nil => simp [applyAll]
  | cons m ms ih =>
    simp only [List.cons_append, applyAll, ih, bind_assoc, List.length_cons, Nat.add_right_comm,
      Nat.add_assoc]

theorem Leads.append (h : Leads o x ms es y) (h' : Leads o y ms' es' z) :
    Leads o x (ms ++ ms') (es ++ es') z := by
  intro clock k t ht
  obtain ⟨hes, hy⟩ := h clock k t ht
  obtain ⟨hes', hz⟩ := h' clock (k + ms.length) _ hy
  rw [applyAll_append]
  exact ⟨by rw [Emits.events_bind, outline_append, hes, hes'], hz⟩

/-- One message. -/
theorem leads_singleton (h : ∀ (t : Tracker) (now : Nat), t.snapshot = x →
    outline (t.apply o m now).events = es ∧ (t.apply o m now).value.snapshot = y) :
    Leads o x [m] es y := by
  intro clock k t ht
  obtain ⟨hes, hy⟩ := h t (clock k) ht
  refine ⟨?_, hy⟩
  rw [applyAll, Emits.events_bind, outline_append, hes]
  exact List.append_nil _

theorem Leads.apply (h : Leads o x [m] es y) {t : Tracker} (ht : t.snapshot = x) (now : Nat) :
    outline (t.apply o m now).events = es ∧ (t.apply o m now).value.snapshot = y := by
  obtain ⟨hes, hy⟩ := h (fun _ => now) 0 t ht
  refine ⟨?_, hy⟩
  rwa [applyAll, Emits.events_bind, outline_append, show outline (applyAll ..).events = [] from rfl,
    List.append_nil] at hes

theorem Leads.cons (h : Leads o x [m] es y) (h' : Leads o y ms es' z) :
    Leads o x (m :: ms) (es ++ es') z :=
  h.append h'

/-- What a message does, when its error is set aside. -/
theorem leads_of_operation (ho : o.BuiltIn)
    (operation : Tracker → Nat → Emits Tracker)
    (hm : ∀ (t : Tracker) (now : Nat), t.apply o m now =
      (Emits.note (.spyEvent m.thread m.kind) >>= fun _ => t.reportError o m >>= fun _ =>
        operation t now))
    (h : Does x operation es y) : Leads o x [m] es y := by
  refine leads_singleton fun t now ht => ?_
  obtain ⟨hes, hy⟩ := h t now ht
  rw [hm]
  refine ⟨?_, hy⟩
  rw [Emits.events_bind, Emits.events_note, List.nil_append, Emits.events_bind, outline_append,
    outline_reportError ho, hes, List.nil_append]

theorem Does.bind {first second : Tracker → Nat → Emits Tracker} (h : Does x first es y)
    (h' : Does y second es' z) :
    Does x (fun t now => first t now >>= fun t => second t now) (es ++ es') z := by
  intro t now ht
  obtain ⟨hes, hy⟩ := h t now ht
  obtain ⟨hes', hz⟩ := h' _ now hy
  exact ⟨by rw [Emits.events_bind, outline_append, hes, hes'], hz⟩

end

end Tracker

end BuildTree
