/-!
# Cutting texts at marks

A mark is a non-empty text.  Occurrences are taken leftmost first and never overlap.

    after? m s   = some r        iff  s = m ++ r
    cut? m s     = some (a, b)   →    s = a ++ m ++ b, with a as short as possible
    splitAll m s                 the pieces of s between the occurrences of m
    replaceAll m n s             every occurrence of m in s rewritten to n
    lines s                      the lines of s, each without its line end
-/

namespace BuildTree.Text

/-- What follows the mark at the start of a text. -/
def after? : List Char → List Char → Option (List Char)
  | [], s => some s
  | _ :: _, [] => none
  | m :: ms, c :: s => if m = c then after? ms s else none

/-- The texts before and after the leftmost occurrence of a mark. -/
def cut? (mark : List Char) : List Char → Option (List Char × List Char)
  | [] => (after? mark []).map ([], ·)
  | c :: s =>
    match after? mark (c :: s) with
    | some rest => some ([], rest)
    | none => (cut? mark s).map fun (a, b) => (c :: a, b)

def holds (mark s : List Char) : Bool := (cut? mark s).isSome

theorem eq_append_of_after? : ∀ {m s r : List Char}, after? m s = some r → s = m ++ r
  | [], _, _, h => by simpa [after?] using h
  | _ :: _, [], _, h => by simp [after?] at h
  | m :: ms, c :: s, r, h => by
    simp only [after?] at h
    split at h
    next e => rw [e, eq_append_of_after? h, List.cons_append]
    next => simp at h

theorem eq_append_of_cut? {m : List Char} :
    ∀ {s a b : List Char}, cut? m s = some (a, b) → s = a ++ m ++ b
  | [], a, b, h => by
    simp only [cut?, Option.map_eq_some_iff, Prod.mk.injEq] at h
    obtain ⟨r, hr, rfl, rfl⟩ := h
    simpa using eq_append_of_after? hr
  | c :: s, a, b, h => by
    simp only [cut?] at h
    split at h
    next r hr =>
      simp only [Option.some.injEq, Prod.mk.injEq] at h
      obtain ⟨rfl, rfl⟩ := h
      simpa using eq_append_of_after? hr
    next =>
      simp only [Option.map_eq_some_iff, Prod.mk.injEq] at h
      obtain ⟨⟨a', b'⟩, hc, rfl, rfl⟩ := h
      rw [eq_append_of_cut? hc, List.cons_append, List.cons_append]

/-- The pieces of a text between the occurrences of a mark. -/
def splitAll (mark s : List Char) : List (List Char) :=
  match _h : cut? mark s with
  | none => [s]
  | some (before, rest) =>
    if mark.isEmpty then [s] else before :: splitAll mark rest
termination_by s.length
decreasing_by
  have hs := congrArg List.length (eq_append_of_cut? _h)
  simp only [List.length_append] at hs
  have : 0 < mark.length := by
    cases mark with
    | nil => simp_all
    | cons => simp
  omega

/-- Every occurrence of a mark rewritten. -/
def replaceAll (mark new s : List Char) : List Char :=
  List.intercalate new (splitAll mark s)

/-- The lines of a text: a line ends at a line feed, a carriage return right before the line
feed belongs to the line end, and text after the last line feed is a line of its own. -/
def lines : List Char → List (List Char)
  | [] => []
  | '\n' :: s => [] :: lines s
  | '\r' :: '\n' :: s => [] :: lines s
  | c :: s =>
    match lines s with
    | [] => [[c]]
    | l :: ls => (c :: l) :: ls

/-! ## Lemmas -/

@[simp] theorem after?_append : ∀ m r : List Char, after? m (m ++ r) = some r
  | [], _ => rfl
  | m :: ms, r => by simp [after?, after?_append ms r]

theorem after?_eq_some_iff {m s r : List Char} : after? m s = some r ↔ s = m ++ r :=
  ⟨eq_append_of_after?, fun h => h ▸ after?_append m r⟩

theorem splitAll_ne_nil (mark s : List Char) : splitAll mark s ≠ [] := by
  rw [splitAll]
  split
  · simp
  · split <;> simp

theorem intercalate_splitAll (mark s : List Char) :
    List.intercalate mark (splitAll mark s) = s := by
  fun_induction splitAll mark s with
  | case1 s h => simp [List.intercalate]
  | case2 s before rest h he => simp [List.intercalate]
  | case3 s before rest h he ih =>
    have hne := splitAll_ne_nil mark rest
    obtain ⟨p, ps, hp⟩ := List.exists_cons_of_ne_nil hne
    rw [hp] at ih ⊢
    simp only [List.intercalate, List.intersperse_cons_cons, List.flatten_cons] at ih ⊢
    rw [ih, eq_append_of_cut? h, List.append_assoc]

end BuildTree.Text
