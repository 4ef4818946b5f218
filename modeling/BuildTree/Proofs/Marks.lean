import BuildTree.Text.Cut
import Mathlib.Data.List.Infix

/-!
# Texts without a mark

Where a mark can be found in a text that is put together from pieces.  A frame around the core of a
mark, a character that the core does not hold, keeps occurrences from reaching over the end of a
piece: so texts that are free of the core are read back as they were put together.

    cut? m s = none                                      iff  m is nowhere in s
    splitAll (framed f c) (intercalate (framed f c) ps) = ps    (splitAll_intercalate)
    replaceAll m [c] (replaceAll [c] m s) = s                   (replaceAll_replaceAll)
-/

namespace BuildTree.Text

/-- A mark with a frame around its core. -/
def framed (frame : Char) (core : List Char) : List Char := frame :: (core ++ [frame])

variable {m core p s a b rest : List Char} {ps : List (List Char)} {c frame : Char}

/-! ## Where a mark can be -/

theorem cut?_eq_none_iff : cut? m s = none ↔ ¬ m <:+: s := by
  induction s with
  | nil =>
    cases m with
    | nil => simp [cut?, after?]
    | cons => simp [cut?, after?]
  | cons c s ih =>
    rw [List.infix_cons_iff, not_or, ← ih]
    cases h : after? m (c :: s) with
    | some r =>
      have hprefix : m <+: c :: s := ⟨r, (eq_append_of_after? h).symm⟩
      simp [cut?, h, hprefix]
    | none =>
      have hprefix : ¬ m <+: c :: s := by
        rintro ⟨r, hr⟩
        rw [← hr, after?_append] at h
        cases h
      simp [cut?, h, hprefix]

/-- A text that starts with the core, up to a character that is not in it. -/
theorem prefix_of_prefix_append_cons (hc : c ∉ core) (h : core <+: a ++ c :: b) : core <+: a := by
  induction a generalizing core with
  | nil =>
    cases core with
    | nil => exact List.nil_prefix
    | cons x core =>
      obtain ⟨rfl, -⟩ := List.cons_prefix_cons.1 h
      exact absurd List.mem_cons_self hc
  | cons y a ih =>
    cases core with
    | nil => exact List.nil_prefix
    | cons x core =>
      obtain ⟨rfl, hrest⟩ := List.cons_prefix_cons.1 h
      exact List.cons_prefix_cons.2 ⟨rfl, ih (List.not_mem_of_not_mem_cons hc) hrest⟩

/-- No occurrence reaches over a character that is not in the core. -/
theorem infix_append_cons (hc : c ∉ core) :
    core <:+: a ++ c :: b ↔ core <:+: a ∨ core <:+: b := by
  constructor
  · intro h
    induction a with
    | nil =>
      rcases List.infix_cons_iff.1 h with hprefix | hinfix
      · exact Or.inl (prefix_of_prefix_append_cons (a := []) hc hprefix).isInfix
      · exact Or.inr hinfix
    | cons y a ih =>
      rcases List.infix_cons_iff.1 h with hprefix | hinfix
      · exact Or.inl (prefix_of_prefix_append_cons (a := y :: a) hc hprefix).isInfix
      · exact (ih hinfix).imp_left fun h => h.trans (List.suffix_cons y a).isInfix
  · rintro (h | h)
    · exact h.trans (List.prefix_append a _).isInfix
    · exact h.trans ((List.suffix_cons c b).trans (List.suffix_append a _)).isInfix

/-- Pieces that are free of a core are so together, with marks between them that are too. -/
theorem not_infix_intercalate (hc : frame ∉ core) {other : List Char} (hother : ¬ core <:+: other)
    (hcore : core ≠ []) (hps : ∀ p ∈ ps, ¬ core <:+: p) :
    ¬ core <:+: List.intercalate (framed frame other) ps := by
  induction ps with
  | nil => simpa [List.intercalate] using hcore
  | cons p ps ih =>
    obtain ⟨hp, hps⟩ := List.forall_mem_cons.1 hps
    cases ps with
    | nil => simpa [List.intercalate] using hp
    | cons q ps =>
      have heq : List.intercalate (framed frame other) (p :: q :: ps) =
          p ++ frame :: (other ++ frame :: List.intercalate (framed frame other) (q :: ps)) := by
        simp [List.intercalate, framed]
      rw [heq, infix_append_cons hc, infix_append_cons hc]
      exact fun h => h.elim hp fun h => h.elim hother (ih hps)

/-! ## Cutting -/

theorem cut?_of_after? {r : List Char} (h : after? m s = some r) : cut? m s = some ([], r) := by
  cases s with
  | nil => simp [cut?, h]
  | cons c s => simp [cut?, h]

/-- A mark is found at the end of a text if it does not start inside. -/
theorem cut?_append (h : ∀ q, q ≠ [] → q <:+ p → ¬ m <+: q ++ (m ++ rest)) :
    cut? m (p ++ (m ++ rest)) = some (p, rest) := by
  induction p with
  | nil => exact cut?_of_after? (after?_append m rest)
  | cons c p ih =>
    have hnone : after? m (c :: (p ++ (m ++ rest))) = none := by
      cases hfound : after? m (c :: (p ++ (m ++ rest))) with
      | none => rfl
      | some r =>
        exact absurd ⟨r, (eq_append_of_after? hfound).symm⟩
          (h (c :: p) (List.cons_ne_nil _ _) (List.suffix_refl _))
    rw [List.cons_append, cut?, hnone,
      ih fun q hq hsuffix => h q hq (hsuffix.trans (List.suffix_cons c p))]
    rfl

theorem cut?_singleton (hc : c ∉ p) : cut? [c] (p ++ c :: rest) = some (p, rest) := by
  refine cut?_append (m := [c]) fun q hq hsuffix hprefix => ?_
  obtain ⟨x, q, rfl⟩ := List.exists_cons_of_ne_nil hq
  obtain ⟨rfl, -⟩ := List.cons_prefix_cons.1 hprefix
  exact hc (hsuffix.subset List.mem_cons_self)

theorem cut?_framed (hframe : frame ∉ core) (hp : ¬ core <:+: p) (rest : List Char) :
    cut? (framed frame core) (p ++ (framed frame core ++ rest)) = some (p, rest) := by
  refine cut?_append fun q hq hsuffix hprefix => hp ?_
  obtain ⟨x, q, rfl⟩ := List.exists_cons_of_ne_nil hq
  -- behind the frame the core has to fit into the rest of the text before the mark
  have hcore := (List.prefix_append core [frame]).trans (List.cons_prefix_cons.1 hprefix).2
  rw [framed, List.cons_append] at hcore
  have hfits := prefix_of_prefix_append_cons hframe hcore
  exact hfits.isInfix.trans ((List.suffix_cons x q).trans hsuffix).isInfix

theorem splitAll_of_cut?_none (h : cut? m s = none) : splitAll m s = [s] := by
  rw [splitAll]
  split
  · rfl
  · next h' =>
    rw [h] at h'
    cases h'

theorem splitAll_of_cut?_some (hm : m ≠ []) (h : cut? m s = some (a, b)) :
    splitAll m s = a :: splitAll m b := by
  rw [splitAll]
  split
  · next h' =>
    rw [h] at h'
    cases h'
  · next a' b' h' =>
    rw [h] at h'
    obtain ⟨rfl, rfl⟩ := Prod.mk.inj (Option.some.inj h')
    rw [if_neg (by simpa using hm)]

/-- Pieces that are free of the core are what the text between the marks is. -/
theorem splitAll_intercalate (hframe : frame ∉ core) (hne : ps ≠ [])
    (hps : ∀ p ∈ ps, ¬ core <:+: p) :
    splitAll (framed frame core) (List.intercalate (framed frame core) ps) = ps := by
  induction ps with
  | nil => exact absurd rfl hne
  | cons p ps ih =>
    obtain ⟨hp, hps⟩ := List.forall_mem_cons.1 hps
    cases ps with
    | nil =>
      have hnone : cut? (framed frame core) p = none := by
        refine cut?_eq_none_iff.2 fun h => hp ?_
        exact ((List.prefix_append core _).isInfix.trans (List.suffix_cons _ _).isInfix).trans h
      rw [show List.intercalate (framed frame core) [p] = p by simp [List.intercalate]]
      exact splitAll_of_cut?_none hnone
    | cons q ps =>
      have heq : List.intercalate (framed frame core) (p :: q :: ps) =
          p ++ (framed frame core ++ List.intercalate (framed frame core) (q :: ps)) := by
        simp [List.intercalate]
      rw [heq, splitAll_of_cut?_some (by simp [framed]) (cut?_framed hframe hp _),
        ih (List.cons_ne_nil _ _) hps]

/-- What lies between the occurrences of a mark is a part of the text. -/
theorem infix_of_mem_splitAll (h : p ∈ splitAll m s) : p <:+: s := by
  fun_induction splitAll m s with
  | case1 s hnone => rw [List.mem_singleton.1 h]
  | case2 s before rest hcut hempty => rw [List.mem_singleton.1 h]
  | case3 s before rest hcut hempty ih =>
    rw [eq_append_of_cut? hcut]
    rcases List.mem_cons.1 h with rfl | h
    · exact ((List.prefix_append _ _).trans (List.prefix_append _ _)).isInfix
    · exact (ih h).trans (List.suffix_append _ _).isInfix

/-- A mark written for a character is read back as the character. -/
theorem replaceAll_replaceAll (hframe : frame ∉ core) (hs : ¬ core <:+: s) (old : List Char) :
    replaceAll (framed frame core) old (replaceAll old (framed frame core) s) = s := by
  have hpieces : ∀ p ∈ splitAll old s, ¬ core <:+: p := fun p hp h =>
    hs (h.trans (infix_of_mem_splitAll hp))
  rw [replaceAll, replaceAll, splitAll_intercalate hframe (splitAll_ne_nil old s) hpieces,
    intercalate_splitAll]

/-! ## Rewriting -/

theorem replaceAll_of_cut?_none {new : List Char} (h : cut? m s = none) :
    replaceAll m new s = s := by
  rw [replaceAll, splitAll_of_cut?_none h]
  simp [List.intercalate]

theorem replaceAll_of_cut?_some {new : List Char} (hm : m ≠ []) (h : cut? m s = some (a, b)) :
    replaceAll m new s = a ++ (new ++ replaceAll m new b) := by
  obtain ⟨p, ps, hps⟩ := List.exists_cons_of_ne_nil (splitAll_ne_nil m b)
  rw [replaceAll, splitAll_of_cut?_some hm h]
  simp [replaceAll, hps, List.intercalate]

/-- A rewritten text ends as the text does, or as the mark that was written. -/
theorem getLast?_replaceAll {new : List Char} {x y : Char} (hy : new.getLast? = some y)
    (hx : (replaceAll [c] new s).getLast? = some x) :
    x = y ∨ x ≠ c ∧ s.getLast? = some x := by
  induction hn : s.length using Nat.strongRecOn generalizing s with
  | _ n ih =>
    cases hcut : cut? [c] s with
    | none =>
      rw [replaceAll_of_cut?_none hcut] at hx
      refine Or.inr ⟨?_, hx⟩
      rintro rfl
      obtain ⟨init, rfl⟩ := List.getLast?_eq_some_iff.1 hx
      exact cut?_eq_none_iff.1 hcut (List.suffix_append init [x]).isInfix
    | some ab =>
      obtain ⟨a, b⟩ := ab
      rw [replaceAll_of_cut?_some (List.cons_ne_nil _ _) hcut, ← List.append_assoc] at hx
      have hs := eq_append_of_cut? hcut
      rw [List.getLast?_append] at hx
      cases hlast : (replaceAll [c] new b).getLast? with
      | none =>
        rw [hlast, Option.none_or, List.getLast?_append, hy] at hx
        exact Or.inl (Option.some.inj hx).symm
      | some z =>
        rw [hlast, Option.some_or] at hx
        obtain rfl := Option.some.inj hx
        have hshort : b.length < n := by
          rw [← hn, hs]
          simp
          omega
        rcases ih _ hshort hlast rfl with h | ⟨hne, hb⟩
        · exact Or.inl h
        · refine Or.inr ⟨hne, ?_⟩
          rw [hs, List.getLast?_append, hb]
          rfl

theorem mem_intercalate (h : c ∈ List.intercalate m ps) : c ∈ m ∨ ∃ p ∈ ps, c ∈ p := by
  induction ps with
  | nil => simp [List.intercalate] at h
  | cons p ps ih =>
    cases ps with
    | nil => exact Or.inr ⟨p, List.mem_cons_self, by simpa [List.intercalate] using h⟩
    | cons q ps =>
      have heq : List.intercalate m (p :: q :: ps) = p ++ (m ++ List.intercalate m (q :: ps)) := by
        simp [List.intercalate]
      rw [heq, List.mem_append, List.mem_append] at h
      rcases h with hp | hm | hrest
      · exact Or.inr ⟨p, List.mem_cons_self, hp⟩
      · exact Or.inl hm
      · exact (ih hrest).imp_right fun ⟨x, hx, hc⟩ => ⟨x, List.mem_cons_of_mem _ hx, hc⟩

theorem mem_replaceAll {new : List Char} (h : c ∈ replaceAll m new s) : c ∈ new ∨ c ∈ s := by
  rcases mem_intercalate h with hnew | ⟨p, hp, hc⟩
  · exact Or.inl hnew
  · exact Or.inr ((infix_of_mem_splitAll hp).subset hc)

end BuildTree.Text
