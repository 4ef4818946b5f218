import BuildTree.Event

/-!
# Tables by id

What is known of the nodes of a tree, by their ids.  A table has one row for an id at most.

    (t.insert i a).get? j = a if j = i, else t.get? j
    (t.erase i).get? j    = nothing if j = i, else t.get? j
    j ∈ t.ids             iff  t.get? j is something
-/

namespace BuildTree

structure Table (α : Type) where
  rows : List (EventId × α) := []
  /-- No id has two rows. -/
  unique : (rows.map (·.1)).Nodup := by exact .nil
  deriving DecidableEq, Repr

namespace Table

variable {α : Type}

/-! ## Algorithm -/

def ids (t : Table α) : List EventId := t.rows.map (·.1)

def get? (t : Table α) (i : EventId) : Option α := t.rows.lookup i

/-- The table without the row of an id. -/
def erase (t : Table α) (i : EventId) : Table α where
  rows := t.rows.filter (·.1 != i)
  unique := t.unique.sublist (List.filter_sublist.map _)

/-- The table with a value for an id, in place of the one that it had. -/
def insert (t : Table α) (i : EventId) (a : α) : Table α where
  rows := (i, a) :: (t.erase i).rows
  unique := List.nodup_cons.2 ⟨by simp [erase], (t.erase i).unique⟩

/-! ## Lemmas -/

section
variable {rows : List (EventId × α)} {i j : EventId}

theorem isSome_lookup_iff : (rows.lookup i).isSome ↔ i ∈ rows.map (·.1) := by
  simp only [List.lookup_isSome_iff, List.mem_map, beq_iff_eq, eq_comm (a := i)]

theorem lookup_filter_self : (rows.filter (·.1 != i)).lookup i = none := by
  rw [List.lookup_eq_none_iff]
  intro row hrow
  rw [bne_comm]
  exact (List.mem_filter.1 hrow).2

theorem lookup_filter_of_ne (h : j ≠ i) : (rows.filter (·.1 != i)).lookup j = rows.lookup j := by
  induction rows with
  | nil => rfl
  | cons row rows ih =>
    by_cases hrow : row.1 = i
    · rw [List.filter_cons_of_neg (by simp [hrow]), ih, List.lookup_cons, hrow, beq_false_of_ne h]
    · rw [List.filter_cons_of_pos (by simp [hrow]), List.lookup_cons, List.lookup_cons, ih]

end

variable {t : Table α} {i j : EventId} {a : α}

theorem mem_ids_iff : i ∈ t.ids ↔ (t.get? i).isSome := isSome_lookup_iff.symm

theorem get?_erase_self : (t.erase i).get? i = none := lookup_filter_self

theorem get?_erase_of_ne (h : j ≠ i) : (t.erase i).get? j = t.get? j := lookup_filter_of_ne h

theorem get?_insert_self : (t.insert i a).get? i = some a := List.lookup_cons_self

theorem get?_insert_of_ne (h : j ≠ i) : (t.insert i a).get? j = t.get? j := by
  show ((i, a) :: (t.erase i).rows).lookup j = t.rows.lookup j
  rw [List.lookup_cons, beq_false_of_ne h]
  exact get?_erase_of_ne h

theorem mem_ids_erase : j ∈ (t.erase i).ids ↔ j ≠ i ∧ j ∈ t.ids := by
  by_cases h : j = i
  · simp [mem_ids_iff, h, get?_erase_self]
  · simp [mem_ids_iff, h, get?_erase_of_ne h]

theorem mem_ids_insert : j ∈ (t.insert i a).ids ↔ j = i ∨ j ∈ t.ids := by
  by_cases h : j = i
  · simp [mem_ids_iff, h, get?_insert_self]
  · simp [mem_ids_iff, h, get?_insert_of_ne h]

end Table

end BuildTree
