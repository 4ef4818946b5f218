import BuildTree.Diagnostic.Basic
import BuildTree.Text.Shortest
import Mathlib.Data.List.TakeWhile

/-!
# Paths, digits and numbers in a compiler line

What the lines of both compilers are made of, told without the readers that find it: a path, runs of
digits, and the numbers that they write.  A path ends at the first place after which the rest of the
line reads.

    digits? s = some (ds, rest)          iff   s = ds ++ rest, and no digit follows the run ds
    coordinate? ds = some n              iff   ds writes n
    shortestBefore tail s = some (p, a)  iff   p is a shortest path before a rest that reads, as a
-/

namespace BuildTree

open Text

/-! ## Algorithm -/

namespace Text

/-- A text that can be a path, or what stands before the extension of one. -/
structure PathLike (s : List Char) : Prop where
  ne_nil : s ≠ []
  lineFeed : '\n' ∉ s

/-- A run of decimal digits, of any script. -/
structure DigitRun (s : List Char) : Prop where
  ne_nil : s ≠ []
  digits : ∀ c ∈ s, isDigit c = true

end Text

/-- Digits write a number in ASCII, and the number is small enough for a position. -/
structure Diagnostic.Writes (digits : List Char) (n : Nat) : Prop where
  ascii : ∀ c ∈ digits, c.isDigit = true
  value : decimalValue digits = n
  bounded : n < positionBound

/-! ## Lemmas -/

namespace Text

variable {α : Type} {tail : List Char → Option α} {s p rest digits : List Char} {a : α}

/-! ### Digits -/

theorem digits?_append (h : DigitRun digits)
    (hrest : ∀ c, rest.head? = some c → isDigit c = false) :
    digits? (digits ++ rest) = some (digits, rest) := by
  have hstop : rest.takeWhile isDigit = [] ∧ rest.dropWhile isDigit = rest := by
    cases rest with
    | nil => exact ⟨rfl, rfl⟩
    | cons c rest =>
      have hc : ¬ isDigit c = true := by simp [hrest c rfl]
      exact ⟨List.takeWhile_cons_of_neg hc, List.dropWhile_cons_of_neg hc⟩
  have htake : (digits ++ rest).takeWhile isDigit = digits := by
    rw [List.takeWhile_append_of_pos h.digits, hstop.1, List.append_nil]
  have hdrop : (digits ++ rest).dropWhile isDigit = rest := by
    rw [List.dropWhile_append_of_pos h.digits, hstop.2]
  obtain ⟨d, ds, rfl⟩ := List.exists_cons_of_ne_nil h.ne_nil
  rw [digits?, htake, hdrop]

theorem digits?_eq_some_iff :
    digits? s = some (digits, rest) ↔
      s = digits ++ rest ∧ DigitRun digits ∧ ∀ c, rest.head? = some c → isDigit c = false := by
  constructor
  · intro h
    rw [digits?] at h
    split at h
    · cases h
    · next d ds htake =>
      simp only [Option.some.injEq, Prod.mk.injEq] at h
      obtain ⟨rfl, rfl⟩ := h
      refine ⟨?_, ⟨by simp, fun c hc => ?_⟩, fun c hc => ?_⟩
      · rw [← htake, List.takeWhile_append_dropWhile]
      · exact List.mem_takeWhile_imp (htake ▸ hc)
      · have hhead := List.head?_dropWhile_not isDigit s
        rw [hc] at hhead
        simpa using hhead
  · rintro ⟨rfl, hdigits, hrest⟩
    exact digits?_append hdigits hrest

theorem oneLine?_eq_some_iff {m : List Char} : oneLine? s = some m ↔ s = m ∧ '\n' ∉ m := by
  rw [oneLine?]
  split <;> grind

/-! ### Paths -/

theorem shortestBefore_eq_some_iff_le :
    shortestBefore tail s = some (p, a) ↔
      ∃ r, s = p ++ r ∧ PathLike p ∧ tail r = some a ∧
        ∀ q t, s = q ++ t → PathLike q → (tail t).isSome → p.length ≤ q.length := by
  rw [shortestBefore_eq_some_iff]
  constructor
  · rintro ⟨r, rfl, hp, hlineFeed, hr, hmin⟩
    refine ⟨r, rfl, ⟨hp, hlineFeed⟩, hr, fun q t hs hq ht => ?_⟩
    by_contra hlt
    -- a shorter path would leave a part of `p` before the rest
    obtain ⟨u, rfl⟩ := List.prefix_of_prefix_length_le (List.prefix_append q t)
      (hs ▸ List.prefix_append p r) (by omega)
    have hu : u ≠ [] := by
      rintro rfl
      simp at hlt
    rw [List.append_assoc, List.append_cancel_left_eq] at hs
    rw [← hs, hmin q u hq.ne_nil hu rfl] at ht
    cases ht
  · rintro ⟨r, rfl, hp, hr, hle⟩
    refine ⟨r, rfl, hp.ne_nil, hp.lineFeed, hr, fun q t hq ht hqt => ?_⟩
    rw [← Option.not_isSome_iff_eq_none]
    intro hsome
    have hpath : PathLike q := ⟨hq, fun hmem => hp.lineFeed (hqt ▸ List.mem_append_left t hmem)⟩
    have hlen := hle q (t ++ r) (by rw [hqt, List.append_assoc]) hpath hsome
    have hpos := List.length_pos_iff.2 ht
    rw [hqt, List.length_append] at hlen
    omega

theorem isSome_shortestBefore_iff :
    (shortestBefore tail s).isSome ↔ ∃ q t, s = q ++ t ∧ PathLike q ∧ (tail t).isSome := by
  constructor
  · intro h
    obtain ⟨⟨q, a⟩, ha⟩ := Option.isSome_iff_exists.1 h
    obtain ⟨t, hs, hq, ht, -⟩ := shortestBefore_eq_some_iff_le.1 ha
    exact ⟨q, t, hs, hq, Option.isSome_of_eq_some ht⟩
  · rintro ⟨q, t, rfl, ⟨hne, hlineFeed⟩, ht⟩
    induction q with
    | nil => exact absurd rfl hne
    | cons c q ih =>
      obtain ⟨hc, hq⟩ : '\n' ≠ c ∧ '\n' ∉ q := by simpa using hlineFeed
      rw [List.cons_append, shortestBefore, if_neg hc.symm]
      cases htail : tail (q ++ t) with
      | some b => rfl
      | none =>
        -- then the rest reads behind a longer path only
        have hqne : q ≠ [] := by
          rintro rfl
          rw [List.nil_append] at htail
          rw [htail] at ht
          cases ht
        simpa using ih hqne hq

end Text

/-! ### Numbers -/

theorem Diagnostic.coordinate?_eq_some_iff {digits : List Char} {n : Nat} (h : DigitRun digits) :
    coordinate? digits = some n ↔ Writes digits n := by
  rw [coordinate?, below?_eq_some_iff]
  constructor
  · rintro ⟨⟨-, hascii⟩, hvalue, hlt⟩
    exact ⟨hascii, hvalue, hlt⟩
  · rintro ⟨hascii, hvalue, hlt⟩
    exact ⟨⟨h.ne_nil, hascii⟩, hvalue, hlt⟩

theorem Diagnostic.eq_coordinate?_iff {digits : List Char} {number : Option Nat}
    (h : DigitRun digits) :
    number = coordinate? digits ↔ ∀ n, number = some n ↔ Writes digits n := by
  simp only [← coordinate?_eq_some_iff h]
  exact Option.ext_iff

end BuildTree
