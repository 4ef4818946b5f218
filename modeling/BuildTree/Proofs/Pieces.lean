import BuildTree.Proofs.Marks

/-!
# The pieces of a text

What it is to cut a text at a mark, said without the scan that does it.  A cut is made at the first
place where the mark begins (`FirstAt`), and then the rest is cut; the last piece does not hold the
mark (`Pieces`).

    cut? m s = some (a, b)   iff   s = a ++ m ++ b, and m begins nowhere before    (cut?_eq_some_iff)
    splitAll m s = ps        iff   ps are the pieces of s                          (splitAll_eq_iff)
-/

namespace BuildTree.Text

/-! ## Algorithm -/

/-- In the text `a ++ m ++ b` the mark begins nowhere before the end of `a`. -/
def FirstAt (m a b : List Char) : Prop :=
  ∀ x y, a ++ (m ++ b) = x ++ (m ++ y) → a.length ≤ x.length

/-- The pieces of a text between the occurrences of a mark, leftmost first and none overlapping. -/
inductive Pieces (m : List Char) : List Char → List (List Char) → Prop
  | last {s} (h : ¬ m <:+: s) : Pieces m s [s]
  | cut {a b ps} (hfirst : FirstAt m a b) (hrest : Pieces m b ps) :
      Pieces m (a ++ (m ++ b)) (a :: ps)

/-! ## Lemmas -/

variable {m core s a b : List Char} {ps : List (List Char)} {frame : Char}

theorem firstAt_of_cut? (h : cut? m s = some (a, b)) : FirstAt m a b := by
  induction s generalizing a with
  | nil =>
    simp only [cut?, Option.map_eq_some_iff, Prod.mk.injEq] at h
    obtain ⟨r, -, rfl, rfl⟩ := h
    exact fun x y _ => Nat.zero_le _
  | cons c s ih =>
    cases hafter : after? m (c :: s) with
    | some r =>
      rw [cut?, hafter] at h
      cases h
      exact fun x y _ => Nat.zero_le _
    | none =>
      simp only [cut?, hafter, Option.map_eq_some_iff, Prod.mk.injEq] at h
      obtain ⟨⟨a', b'⟩, hcut, rfl, rfl⟩ := h
      intro x y hxy
      cases x with
      | nil =>
        -- the mark does not begin at the first character
        have hs : c :: s = m ++ y := by
          rw [eq_append_of_cut? hcut, ← List.nil_append (m ++ y), ← hxy]
          simp
        rw [hs, after?_append] at hafter
        cases hafter
      | cons d x =>
        simp only [List.cons_append, List.cons.injEq] at hxy
        exact Nat.succ_le_succ (ih hcut x y hxy.2)

theorem cut?_eq_some_iff : cut? m s = some (a, b) ↔ s = a ++ (m ++ b) ∧ FirstAt m a b := by
  constructor
  · intro h
    exact ⟨by rw [eq_append_of_cut? h, List.append_assoc], firstAt_of_cut? h⟩
  · rintro ⟨rfl, hfirst⟩
    refine cut?_append fun q hq hsuffix hprefix => ?_
    obtain ⟨x, rfl⟩ := hsuffix
    obtain ⟨y, hy⟩ := hprefix
    have hle := hfirst x y (by rw [hy, List.append_assoc])
    have hpos := List.length_pos_iff.2 hq
    rw [List.length_append] at hle
    omega

theorem pieces_splitAll (hm : m ≠ []) (s : List Char) : Pieces m s (splitAll m s) := by
  fun_induction splitAll m s with
  | case1 s hcut => exact .last (cut?_eq_none_iff.1 hcut)
  | case2 s before rest hcut hempty => exact absurd (List.isEmpty_iff.1 hempty) hm
  | case3 s before rest hcut hempty ih =>
    obtain ⟨rfl, hfirst⟩ := cut?_eq_some_iff.1 hcut
    exact .cut hfirst ih

/-- The scan finds the pieces, and nothing else are the pieces of a text. -/
theorem splitAll_eq_iff (hm : m ≠ []) : splitAll m s = ps ↔ Pieces m s ps := by
  constructor
  · rintro rfl
    exact pieces_splitAll hm s
  · intro h
    induction h with
    | last h => exact splitAll_of_cut?_none (cut?_eq_none_iff.2 h)
    | cut hfirst _ ih => rw [splitAll_of_cut?_some hm (cut?_eq_some_iff.2 ⟨rfl, hfirst⟩), ih]

/-- A text without the core of a mark is a piece of its own, at the end and before a mark. -/
theorem pieces_cons_iff (hframe : frame ∉ core) (ha : ¬ core <:+: a) :
    Pieces (framed frame core) s (a :: ps) ↔
      (s = a ∧ ps = []) ∨ ∃ b, s = a ++ (framed frame core ++ b) ∧ Pieces (framed frame core) b ps := by
  constructor
  · intro h
    cases h with
    | last h => exact Or.inl ⟨rfl, rfl⟩
    | cut hfirst hrest => exact Or.inr ⟨_, rfl, hrest⟩
  · rintro (⟨rfl, rfl⟩ | ⟨b, rfl, hrest⟩)
    · refine .last fun h => ha ?_
      exact ((List.prefix_append core _).isInfix.trans (List.suffix_cons _ _).isInfix).trans h
    · exact .cut (firstAt_of_cut? (cut?_framed hframe ha b)) hrest

end BuildTree.Text
