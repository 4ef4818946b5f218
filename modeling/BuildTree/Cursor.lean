import BuildTree.Line

/-!
# A cursor over raw lines

A cursor holds a source of lines and a slot for one more.  The line delivered last may be given back
once: it goes into the slot, and is delivered again as if it had just arrived.

    next?     delivers the line in the slot, or else the first line of the source
    giveBack  puts the line delivered last into the slot, unless that is taken
    peek      classifies the next line, which stays to be delivered

The view of a cursor is `pending`, the slot and then the source; every operation is stated through
it.  No line can be given back while the slot is taken.
-/

namespace BuildTree

/-! ## Algorithm -/

structure Cursor where
  /-- The lines that were not delivered yet. -/
  source : List String
  /-- The line that was given back. -/
  slot : Option String := none
  /-- The line that `giveBack` would put back. -/
  last : Option String := none
  /-- A line that was given back is not there to be given back again. -/
  last_of_slot : slot.isSome → last = none := by simp
  deriving DecidableEq, Repr

namespace Cursor

def ofLines (lines : List String) : Cursor := { source := lines }

/-- A cursor with nothing to look ahead at. -/
def empty : Cursor := ofLines []

/-- The lines still to be delivered, a line given back included. -/
def pending (c : Cursor) : List String := c.slot.toList ++ c.source

/-- The next raw line, with the cursor after it. -/
def next? (c : Cursor) : Option (String × Cursor) :=
  match c.slot, c.source with
  | some raw, rest => some (raw, { source := rest, last := some raw })
  | none, raw :: rest => some (raw, { source := rest, last := some raw })
  | none, [] => none

/-- Puts the line delivered last into the slot, unless a line is there already. -/
def giveBack (c : Cursor) : Cursor :=
  match c.slot, c.last with
  | none, some raw => { source := c.source, slot := some raw }
  | _, _ => c

/-- The next line, classified.  At the end the cursor stays as it is. -/
def read (c : Cursor) : Option Line × Cursor :=
  match c.next? with
  | none => (none, c)
  | some (raw, rest) => (some (Line.classify raw), rest)

/-- The next line, classified, which is left in the slot.  It cannot be given back a second time. -/
def peek (c : Cursor) : Option Line × Cursor :=
  match c.slot with
  | some raw => (some (Line.classify raw), c)
  | none =>
    match c.next? with
    | none => (none, c)
    | some (raw, rest) => (some (Line.classify raw), rest.giveBack)

/-- The number of lines still to be delivered. -/
def size (c : Cursor) : Nat := c.pending.length

/-! ## Lemmas -/

theorem pending_of_next? {c rest : Cursor} {raw : String} (h : c.next? = some (raw, rest)) :
    c.pending = raw :: rest.pending ∧ rest.last = some raw := by
  unfold next? at h
  split at h
  · next hslot =>
    cases h
    exact ⟨by rw [pending, hslot]; rfl, rfl⟩
  · next hslot hsource =>
    cases h
    exact ⟨by rw [pending, hslot, hsource]; rfl, rfl⟩
  · cases h

theorem next?_eq_none_iff {c : Cursor} : c.next? = none ↔ c.pending = [] := by
  unfold next? pending
  split <;> simp_all

theorem exists_next? {c : Cursor} {raw : String} {lines : List String}
    (h : c.pending = raw :: lines) :
    ∃ rest, c.next? = some (raw, rest) ∧ rest.pending = lines ∧ rest.last = some raw := by
  cases hnext : c.next? with
  | none =>
    rw [next?_eq_none_iff.1 hnext] at h
    cases h
  | some p =>
    obtain ⟨raw', rest⟩ := p
    obtain ⟨hpending, hlast⟩ := pending_of_next? hnext
    obtain ⟨rfl, rfl⟩ := List.cons.inj (hpending.symm.trans h)
    exact ⟨rest, rfl, rfl, hlast⟩

theorem size_of_next? {c rest : Cursor} {raw : String} (h : c.next? = some (raw, rest)) :
    c.size = rest.size + 1 := by
  rw [size, (pending_of_next? h).1, List.length_cons, size]

theorem giveBack_of_last_eq_none {c : Cursor} (h : c.last = none) : c.giveBack = c := by
  unfold giveBack
  rw [h]
  cases c.slot <;> rfl

theorem giveBack_of_last {c : Cursor} {raw : String} (h : c.last = some raw) :
    c.giveBack.pending = raw :: c.pending ∧ c.giveBack.last = none := by
  have hslot : c.slot = none := by
    cases hslot : c.slot with
    | none => rfl
    | some _ =>
      have hnone := c.last_of_slot (by rw [hslot]; rfl)
      rw [h] at hnone
      cases hnone
  rw [giveBack, hslot, h, pending, pending, hslot]
  exact ⟨rfl, rfl⟩

theorem size_giveBack_le (c : Cursor) : c.giveBack.size ≤ c.size + 1 := by
  cases h : c.last with
  | none => rw [giveBack_of_last_eq_none h]; exact Nat.le_succ _
  | some raw => exact Nat.le_of_eq (congrArg List.length (giveBack_of_last h).1)

/-- Giving back undoes a delivery, once. -/
theorem giveBack_next? {c rest : Cursor} {raw : String} (h : c.next? = some (raw, rest)) :
    rest.giveBack.pending = c.pending ∧ rest.giveBack.last = none := by
  obtain ⟨hpending, hlast⟩ := pending_of_next? h
  rw [hpending]
  exact giveBack_of_last hlast

/-! What a look ahead answers is what a delivery would. -/

theorem fst_read (c : Cursor) : c.read.1 = c.next?.map fun p => Line.classify p.1 := by
  unfold read
  split <;> simp [*]

theorem fst_peek (c : Cursor) : c.peek.1 = c.next?.map fun p => Line.classify p.1 := by
  unfold peek
  split
  · next hslot => simp [next?, hslot]
  · split <;> simp [*]

theorem peek_pending (c : Cursor) : c.peek.2.pending = c.pending := by
  unfold peek
  split
  · rfl
  · split
    · rfl
    · next h => exact (giveBack_next? h).1

/-- A look ahead fills the slot. -/
theorem last_peek {c rest : Cursor} {raw : String} (h : c.next? = some (raw, rest)) :
    c.peek.2.last = none := by
  unfold peek
  split
  · next hslot => exact c.last_of_slot (by rw [hslot]; rfl)
  · rw [h]
    exact (giveBack_next? h).2

/-- At the end a look ahead changes nothing. -/
theorem peek_of_next?_eq_none {c : Cursor} (h : c.next? = none) : c.peek.2 = c := by
  unfold peek
  split
  · rfl
  · rw [h]

end Cursor

end BuildTree
