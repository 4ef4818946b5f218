import BuildTree.Cursor
import Mathlib.Data.List.Induction

/-!
# Positions of a cursor

Whatever is called on a cursor over some lines, in whatever order, the cursor stands at a position
in them, and what is pending are the lines from there on.  A delivery moves it forward by one line; a
line that is given back moves it back by one, if a delivery is there to be undone.  A line in the
slot is the one at the position, and the source goes on behind it.

    (after lines calls).pending = lines.drop (position lines calls)
    a line can be given back   iff   a call delivered one and no later one spent it
-/

namespace BuildTree.Cursor

/-! ## Algorithm -/

inductive Call where
  | next | read | peek | giveBack
  deriving DecidableEq, Repr

/-- What a call answers: a raw line or a classified one, if there is one. -/
inductive Answer where
  | raw (line : Option String)
  | classified (line : Option Line)
  | nothing
  deriving DecidableEq, Repr

def Answer.found : Answer → Bool
  | .raw line => line.isSome
  | .classified line => line.isSome
  | .nothing => false

def call (c : Cursor) : Call → Answer × Cursor
  | .next => (.raw (c.next?.map (·.1)), (c.next?.map (·.2)).getD c)
  | .read => (.classified c.read.1, c.read.2)
  | .peek => (.classified c.peek.1, c.peek.2)
  | .giveBack => (.nothing, c.giveBack)

/-- The cursor over some lines after some calls. -/
def after (lines : List String) (calls : List Call) : Cursor :=
  calls.foldl (fun c k => (c.call k).2) (ofLines lines)

def answer (lines : List String) (calls : List Call) (k : Call) : Answer :=
  ((after lines calls).call k).1

/-- How many lines lie before the cursor. -/
def position (lines : List String) (calls : List Call) : Nat :=
  lines.length - (after lines calls).size

/-- A call made after others delivers a line. -/
def Delivers (lines : List String) (calls : List Call) (k : Call) : Prop :=
  (k = .next ∨ k = .read) ∧ (answer lines calls k).found = true

/-- A call made after others gives a line back, or peeks at one. -/
def Spends (lines : List String) (calls : List Call) (k : Call) : Prop :=
  (k = .peek ∧ (answer lines calls k).found = true) ∨
    (k = .giveBack ∧ position lines (calls ++ [k]) ≠ position lines calls)

/-- A call delivered a line, and no call since then gave one back or peeked at one. -/
def Returnable (lines : List String) (calls : List Call) : Prop :=
  ∃ before k since, calls = before ++ k :: since ∧ Delivers lines before k ∧
    ∀ mid j rest, since = mid ++ j :: rest → ¬ Spends lines (before ++ k :: mid) j

/-- A cursor stands at a position: the lines from there on are pending, and the line that could be
given back is the one before. -/
structure Stands (lines : List String) (n : Nat) (c : Cursor) : Prop where
  pending : c.pending = lines.drop n
  le_length : n ≤ lines.length
  last : ∀ raw, c.last = some raw → ∃ m, n = m + 1 ∧ lines[m]? = some raw

/-! ## Lemmas -/

variable {lines : List String} {calls : List Call} {n : Nat} {c : Cursor} {j k : Call} {raw : String}

theorem after_concat : after lines (calls ++ [k]) = ((after lines calls).call k).2 := by
  simp [after]

/-! ### One call -/

namespace Stands

theorem next?_eq_none (h : Stands lines n c) (hraw : lines[n]? = none) : c.next? = none := by
  rw [next?_eq_none_iff, h.pending]
  exact List.drop_eq_nil_of_le (List.getElem?_eq_none_iff.1 hraw)

theorem next?_eq_some (h : Stands lines n c) (hraw : lines[n]? = some raw) :
    ∃ rest, c.next? = some (raw, rest) ∧ Stands lines (n + 1) rest ∧ rest.last = some raw := by
  obtain ⟨hlt, rfl⟩ := List.getElem?_eq_some_iff.1 hraw
  obtain ⟨rest, hnext, hrest, hlast⟩ :=
    exists_next? (h.pending.trans (List.drop_eq_getElem_cons hlt))
  refine ⟨rest, hnext, ⟨hrest, hlt, fun raw' hraw' => ⟨n, rfl, ?_⟩⟩, hlast⟩
  rw [hraw, ← hlast, hraw']

theorem map_next? (h : Stands lines n c) : c.next?.map (·.1) = lines[n]? := by
  cases hraw : lines[n]? with
  | none => rw [h.next?_eq_none hraw, Option.map_none]
  | some raw =>
    obtain ⟨rest, hnext, -⟩ := h.next?_eq_some hraw
    rw [hnext, Option.map_some]

/-- A line in the slot is the next one, and the source has those behind it. -/
theorem of_slot (h : Stands lines n c) (hslot : c.slot = some raw) :
    lines[n]? = some raw ∧ c.source = lines.drop (n + 1) := by
  have hpending := h.pending
  rw [Cursor.pending, hslot, Option.toList_some, List.singleton_append] at hpending
  rw [← List.head?_drop, ← List.tail_drop, ← hpending]
  exact ⟨rfl, rfl⟩

/-- At the end only giving back changes anything. -/
theorem call_end (h : Stands lines n c) (hraw : lines[n]? = none) (hk : k ≠ .giveBack) :
    (c.call k).2 = c := by
  have hnext := h.next?_eq_none hraw
  cases k with
  | next => rw [Cursor.call, hnext]; rfl
  | read => rw [Cursor.call, read, hnext]
  | peek => exact peek_of_next?_eq_none hnext
  | giveBack => exact absurd rfl hk

/-- A delivery moves the cursor on by one line. -/
theorem call_delivery (h : Stands lines n c) (hraw : lines[n]? = some raw)
    (hk : k = .next ∨ k = .read) :
    Stands lines (n + 1) (c.call k).2 ∧ (c.call k).2.last = some raw := by
  obtain ⟨rest, hnext, hrest⟩ := h.next?_eq_some hraw
  rcases hk with rfl | rfl
  · simpa [Cursor.call, hnext] using hrest
  · simpa [Cursor.call, read, hnext] using hrest

/-- A look ahead leaves the cursor where it is, with the line in the slot. -/
theorem call_peek (h : Stands lines n c) (hraw : lines[n]? = some raw) :
    Stands lines n (c.call .peek).2 ∧ (c.call .peek).2.last = none := by
  obtain ⟨rest, hnext, -⟩ := h.next?_eq_some hraw
  have hlast : (c.call .peek).2.last = none := last_peek hnext
  refine ⟨⟨(peek_pending c).trans h.pending, h.le_length, fun _ h' => ?_⟩, hlast⟩
  rw [hlast] at h'
  cases h'

/-- Giving a line back moves the cursor back by one line. -/
theorem call_giveBack (h : Stands lines n c) (hlast : c.last = some raw) :
    ∃ m, n = m + 1 ∧ Stands lines m (c.call .giveBack).2 ∧ (c.call .giveBack).2.last = none := by
  obtain ⟨m, rfl, hraw⟩ := h.last raw hlast
  obtain ⟨hlt, rfl⟩ := List.getElem?_eq_some_iff.1 hraw
  obtain ⟨hpending, hnone⟩ := giveBack_of_last hlast
  rw [h.pending, ← List.drop_eq_getElem_cons hlt] at hpending
  refine ⟨m, rfl, ⟨hpending, Nat.le_of_lt hlt, fun _ h' => ?_⟩, hnone⟩
  rw [Cursor.call, hnone] at h'
  cases h'

theorem call (h : Stands lines n c) (k : Call) : ∃ m, Stands lines m (c.call k).2 := by
  by_cases hk : k = .giveBack
  · subst hk
    cases hlast : c.last with
    | none => exact ⟨n, by rwa [Cursor.call, giveBack_of_last_eq_none hlast]⟩
    | some raw =>
      obtain ⟨m, -, hback, -⟩ := h.call_giveBack hlast
      exact ⟨m, hback⟩
  · cases hraw : lines[n]? with
    | none => exact ⟨n, by rwa [h.call_end hraw hk]⟩
    | some raw =>
      cases k with
      | next => exact ⟨n + 1, (h.call_delivery hraw (.inl rfl)).1⟩
      | read => exact ⟨n + 1, (h.call_delivery hraw (.inr rfl)).1⟩
      | peek => exact ⟨n, (h.call_peek hraw).1⟩
      | giveBack => exact absurd rfl hk

theorem position_eq (h : Stands lines n (after lines calls)) : position lines calls = n := by
  have := h.le_length
  rw [position, size, h.pending, List.length_drop]
  omega

end Stands

/-! ### All calls -/

theorem exists_stands (lines : List String) (calls : List Call) :
    ∃ n, Stands lines n (after lines calls) := by
  induction calls using List.reverseRecOn with
  | nil => exact ⟨0, rfl, Nat.zero_le _, fun _ hlast => nomatch hlast⟩
  | append_singleton calls k ih =>
    obtain ⟨n, hn⟩ := ih
    rw [after_concat]
    exact hn.call k

theorem stands_after (lines : List String) (calls : List Call) :
    Stands lines (position lines calls) (after lines calls) := by
  obtain ⟨n, hn⟩ := exists_stands lines calls
  rwa [hn.position_eq]

theorem answer_next : answer lines calls .next = .raw lines[position lines calls]? :=
  congrArg Answer.raw (stands_after lines calls).map_next?

theorem answer_read : answer lines calls .read =
    .classified (lines[position lines calls]?.map Line.classify) := by
  rw [← (stands_after lines calls).map_next?, Option.map_map]
  exact congrArg Answer.classified (fst_read _)

theorem answer_peek : answer lines calls .peek =
    .classified (lines[position lines calls]?.map Line.classify) := by
  rw [← (stands_after lines calls).map_next?, Option.map_map]
  exact congrArg Answer.classified (fst_peek _)

/-- After one more call the cursor stands where that call moved it. -/
theorem position_concat {m : Nat} (h : Stands lines m ((after lines calls).call k).2) :
    position lines (calls ++ [k]) = m := by
  rw [← after_concat] at h
  exact h.position_eq

/-! ### The line that can be given back -/

theorem returnable_concat :
    Returnable lines (calls ++ [j]) ↔
      Delivers lines calls j ∨ (Returnable lines calls ∧ ¬ Spends lines calls j) := by
  constructor
  · rintro ⟨before, k, since, hcalls, hk, hsince⟩
    rcases List.eq_nil_or_concat since with rfl | ⟨since, i, rfl⟩
    · obtain ⟨rfl, hlast⟩ := List.append_inj' hcalls rfl
      cases hlast
      exact Or.inl hk
    · rw [List.concat_eq_append, ← List.cons_append, ← List.append_assoc] at hcalls
      obtain ⟨rfl, hlast⟩ := List.append_inj' hcalls rfl
      cases hlast
      refine Or.inr ⟨⟨before, k, since, rfl, hk, ?_⟩, hsince since j [] (by simp)⟩
      rintro mid i rest rfl
      exact hsince mid i (rest ++ [j]) (by simp)
  · rintro (hj | ⟨⟨before, k, since, rfl, hk, hsince⟩, hj⟩)
    · exact ⟨calls, j, [], rfl, hj, by simp⟩
    · refine ⟨before, k, since ++ [j], by simp, hk, fun mid i rest h => ?_⟩
      rcases List.eq_nil_or_concat rest with rfl | ⟨rest, i', rfl⟩
      · obtain ⟨rfl, hlast⟩ := List.append_inj' h rfl
        cases hlast
        exact hj
      · rw [List.concat_eq_append, ← List.cons_append, ← List.append_assoc] at h
        exact hsince mid i rest (List.append_inj' h rfl).1

theorem isSome_last_concat :
    (after lines (calls ++ [j])).last.isSome ↔
      Delivers lines calls j ∨ ((after lines calls).last.isSome ∧ ¬ Spends lines calls j) := by
  have h := stands_after lines calls
  rw [after_concat]
  cases j with
  | giveBack =>
    cases hlast : (after lines calls).last with
    | none =>
      rw [call, giveBack_of_last_eq_none hlast, hlast]
      simp [Delivers]
    | some raw =>
      obtain ⟨m, hm, hback, hnone⟩ := h.call_giveBack hlast
      have hposition := position_concat hback
      rw [hnone]
      simp [Delivers, Spends, hposition, hm]
  | peek =>
    rw [Delivers, Spends, answer_peek]
    cases hraw : lines[position lines calls]? with
    | none => simp [h.call_end hraw, Answer.found]
    | some raw => simp [(h.call_peek hraw).2, Answer.found]
  | next =>
    rw [Delivers, Spends, answer_next]
    cases hraw : lines[position lines calls]? with
    | none => simp [h.call_end hraw, Answer.found]
    | some raw => simp [(h.call_delivery hraw (.inl rfl)).2, Answer.found]
  | read =>
    rw [Delivers, Spends, answer_read]
    cases hraw : lines[position lines calls]? with
    | none => simp [h.call_end hraw, Answer.found]
    | some raw => simp [(h.call_delivery hraw (.inr rfl)).2, Answer.found]

theorem isSome_last_iff : (after lines calls).last.isSome ↔ Returnable lines calls := by
  induction calls using List.reverseRecOn with
  | nil =>
    simp only [after, List.foldl_nil, ofLines, Option.isSome_none, Bool.false_eq_true, false_iff]
    rintro ⟨before, k, since, h, -⟩
    simp at h
  | append_singleton calls k ih => rw [isSome_last_concat, returnable_concat, ih]

/-! ## Top theorem -/

/-- After any calls the cursor stands at a position, and the lines from there on are pending: all in
the source, or the first of them in the slot.  A delivery answers the line there and moves on by
one, or answers that there is none and changes nothing; a look ahead answers the line there and
stays.  Giving back moves back by one, if a call delivered a line and no later one gave a line back
or peeked at one, and else changes nothing. -/
theorem after_calls_stands (lines : List String) (calls : List Call) :
    let n := position lines calls
    (n ≤ lines.length ∧ (after lines calls).pending = lines.drop n) ∧
    (∀ raw, (after lines calls).slot = some raw →
      lines[n]? = some raw ∧ (after lines calls).source = lines.drop (n + 1)) ∧
    (answer lines calls .next = .raw lines[n]? ∧
      answer lines calls .read = .classified (lines[n]?.map Line.classify) ∧
      answer lines calls .peek = .classified (lines[n]?.map Line.classify)) ∧
    (∀ k, k = .next ∨ k = .read →
      (n < lines.length → position lines (calls ++ [k]) = n + 1) ∧
      (n = lines.length → after lines (calls ++ [k]) = after lines calls)) ∧
    position lines (calls ++ [.peek]) = n ∧
    (position lines (calls ++ [.giveBack]) + 1 = n ↔ Returnable lines calls) ∧
    (¬ Returnable lines calls → after lines (calls ++ [.giveBack]) = after lines calls) := by
  intro n
  have h : Stands lines n (after lines calls) := stands_after lines calls
  refine ⟨⟨h.le_length, h.pending⟩, fun _ => h.of_slot, ⟨answer_next, answer_read, answer_peek⟩,
    fun k hk => ⟨fun hlt => ?_, fun heq => ?_⟩, ?_, ?_, fun hnot => ?_⟩
  · exact position_concat (h.call_delivery (List.getElem?_eq_getElem hlt) hk).1
  · have hraw : lines[n]? = none := List.getElem?_eq_none (Nat.le_of_eq heq.symm)
    rw [after_concat]
    exact h.call_end hraw (by rcases hk with rfl | rfl <;> decide)
  · cases hraw : lines[n]? with
    | none => exact position_concat (by rwa [h.call_end hraw (by decide)])
    | some raw => exact position_concat (h.call_peek hraw).1
  · rw [← isSome_last_iff]
    cases hlast : (after lines calls).last with
    | none =>
      have hsame := position_concat (k := .giveBack)
        (by rwa [call, giveBack_of_last_eq_none hlast])
      simp [hsame]
    | some raw =>
      obtain ⟨m, hm, hback, -⟩ := h.call_giveBack hlast
      simp [position_concat hback, hm]
  · rw [← isSome_last_iff, Option.not_isSome_iff_eq_none] at hnot
    rw [after_concat]
    exact giveBack_of_last_eq_none hnot

/-- A line is given back once, and a peek leaves none to be given back. -/
example :
    position ["a", "b", "c"] [.next, .read, .giveBack, .giveBack, .read, .peek, .giveBack] = 2 := by
  decide +kernel

end BuildTree.Cursor
