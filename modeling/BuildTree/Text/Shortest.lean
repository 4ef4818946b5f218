import BuildTree.Text.Digit
import BuildTree.Text.Cut

/-!
# The shortest readable split

Compiler lines start with a path that may hold almost anything, so the path ends at the
first place after which the rest of the line reads as expected.

    shortestBefore tail s = some (p, a)   iff   p is the shortest non-empty prefix of s,
                                                free of line feeds, with tail (rest) = some a
                                                (shortestBefore_eq_some_iff)
-/

namespace BuildTree.Text

variable {α : Type}

/-- The shortest non-empty prefix without line feed after which `tail` reads the rest. -/
def shortestBefore (tail : List Char → Option α) : List Char → Option (List Char × α)
  | [] => none
  | c :: s =>
    if c = '\n' then none
    else
      match tail s with
      | some a => some ([c], a)
      | none => (shortestBefore tail s).map fun (p, a) => (c :: p, a)

/-- A non-empty run of decimal digits, and what follows it. -/
def digits? (s : List Char) : Option (List Char × List Char) :=
  match s.takeWhile isDigit with
  | [] => none
  | d :: ds => some (d :: ds, s.dropWhile isDigit)

/-- A text without line feed. -/
def oneLine? (s : List Char) : Option (List Char) := if '\n' ∈ s then none else some s

/-! ## Lemmas -/

theorem shortestBefore_eq_some_iff {tail : List Char → Option α} :
    ∀ {s p : List Char} {a : α}, shortestBefore tail s = some (p, a) ↔
      ∃ r, s = p ++ r ∧ p ≠ [] ∧ '\n' ∉ p ∧ tail r = some a ∧
        ∀ q t, q ≠ [] → t ≠ [] → p = q ++ t → tail (t ++ r) = none
  | [], p, a => by
    simp only [shortestBefore, reduceCtorEq, false_iff]
    rintro ⟨r, hs, hp, -⟩
    exact hp (List.append_eq_nil_iff.1 hs.symm).1
  | c :: s, p, a => by
    unfold shortestBefore
    by_cases hc : c = '\n'
    · subst hc
      simp only [↓reduceIte, false_iff, reduceCtorEq]
      rintro ⟨r, hs, hp, hn, -⟩
      cases p with
      | nil => exact hp rfl
      | cons x p => cases hs; simp at hn
    · simp only [hc, ↓reduceIte]
      cases ht : tail s with
      | some b =>
        constructor
        · intro h
          cases h
          refine ⟨s, rfl, by simp, by simpa using Ne.symm hc, ht, ?_⟩
          intro q t hq ht' e
          cases q with
          | nil => exact absurd rfl hq
          | cons x q => cases q <;> cases t <;> simp_all
        · rintro ⟨r, hs, hp, hn, hr, hmin⟩
          cases p with
          | nil => exact absurd rfl hp
          | cons x p =>
            simp only [List.cons_append, List.cons.injEq] at hs
            obtain ⟨rfl, rfl⟩ := hs
            cases p with
            | nil => simp_all
            | cons y p =>
              have := hmin [c] (y :: p) (by simp) (by simp) rfl
              rw [ht] at this
              cases this
      | none =>
        simp only [Option.map_eq_some_iff, Prod.mk.injEq]
        constructor
        · rintro ⟨⟨p', a'⟩, h, rfl, rfl⟩
          obtain ⟨r, rfl, hp, hn, hr, hmin⟩ := shortestBefore_eq_some_iff.1 h
          refine ⟨r, rfl, by simp, by simp [Ne.symm hc, hn], hr, ?_⟩
          intro q t hq ht' e
          cases q with
          | nil => exact absurd rfl hq
          | cons x q =>
            simp only [List.cons_append, List.cons.injEq] at e
            cases q with
            | nil =>
              rw [List.nil_append] at e
              rw [← e.2]
              exact ht
            | cons y q => exact hmin (y :: q) t (by simp) ht' e.2
        · rintro ⟨r, hs, hp, hn, hr, hmin⟩
          cases p with
          | nil => exact absurd rfl hp
          | cons x p =>
            simp only [List.cons_append, List.cons.injEq] at hs
            obtain ⟨rfl, rfl⟩ := hs
            have hp' : p ≠ [] := by
              rintro rfl
              rw [List.nil_append] at ht
              rw [ht] at hr
              cases hr
            refine ⟨(p, a), shortestBefore_eq_some_iff.2 ⟨r, rfl, hp', ?_, hr, ?_⟩, rfl, rfl⟩
            · exact fun h => hn (List.mem_cons_of_mem _ h)
            · intro q t hq ht' e
              exact hmin (c :: q) t (by simp) ht' (by rw [e, List.cons_append])

end BuildTree.Text
