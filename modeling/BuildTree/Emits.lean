import BuildTree.Note

/-!
# Values with what they emit

`Emits α` is a value together with the events and the notes emitted on the way to it, in
order.  Steps are chained with `do`; what a chain emits is what its steps emit, one after
the other.

    (x >>= f).events = x.events ++ (f x.value).events   (events_bind)
    (x >>= f).notes  = x.notes ++ (f x.value).notes     (notes_bind)
-/

namespace BuildTree

structure Emits (α : Type) where
  value : α
  events : List Event := []
  notes : List Note := []

namespace Emits

instance : Monad Emits where
  pure a := ⟨a, [], []⟩
  bind x f :=
    let y := f x.value
    ⟨y.value, x.events ++ y.events, x.notes ++ y.notes⟩

def event (e : Event) : Emits Unit := ⟨(), [e], []⟩

def note (n : Note) : Emits Unit := ⟨(), [], [n]⟩

/-! ## Lemmas -/

section
variable {α β : Type} (a : α) (x : Emits α) (f : α → Emits β) (g : α → β) (e : Event) (n : Note)

@[ext] theorem ext {x y : Emits α} (hv : x.value = y.value) (he : x.events = y.events)
    (hn : x.notes = y.notes) : x = y := by
  cases x; cases y; simp_all

@[simp] theorem value_pure : (pure a : Emits α).value = a := rfl
@[simp] theorem events_pure : (pure a : Emits α).events = [] := rfl
@[simp] theorem notes_pure : (pure a : Emits α).notes = [] := rfl
@[simp] theorem value_bind : (x >>= f).value = (f x.value).value := rfl
@[simp] theorem events_bind : (x >>= f).events = x.events ++ (f x.value).events := rfl
@[simp] theorem notes_bind : (x >>= f).notes = x.notes ++ (f x.value).notes := rfl
@[simp] theorem value_map : (g <$> x).value = g x.value := rfl
@[simp] theorem events_map : (g <$> x).events = x.events := List.append_nil _
@[simp] theorem notes_map : (g <$> x).notes = x.notes := List.append_nil _
@[simp] theorem events_event : (event e).events = [e] := rfl
@[simp] theorem notes_event : (event e).notes = [] := rfl
@[simp] theorem events_note : (note n).events = [] := rfl
@[simp] theorem notes_note : (note n).notes = [n] := rfl

end

instance : LawfulMonad Emits :=
  LawfulMonad.mk' Emits
    (fun x => by ext <;> simp [Functor.map])
    (fun a f => by ext <;> simp)
    (fun x f g => by ext <;> simp)

end Emits

end BuildTree
