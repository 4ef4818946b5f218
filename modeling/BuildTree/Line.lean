import BuildTree.Text.Blank
import BuildTree.Text.Cut

/-!
# Output lines

A raw line may redraw itself with carriage returns; what stays on the screen is the
text after the last one.  That text may start with a level mark such as `[ERROR] `.

    classify raw = ⟨some l, t⟩   iff   shown raw = l.mark ++ t   (classify_some_iff)
    classify raw = ⟨none, t⟩     iff   shown raw = t, which starts with no mark
-/

namespace BuildTree

open Text

/-! ## Algorithm -/

/-- The level that a build's logger puts in front of a line. -/
inductive Level where
  | info | warning | error
  deriving DecidableEq, Repr

/-- The mark of a level, its blank included. -/
def Level.mark : Level → String
  | .info => "[INFO] "
  | .warning => "[WARNING] "
  | .error => "[ERROR] "

def Level.all : List Level := [.info, .warning, .error]

/-- A line taken apart: its level, if it announces one, and the text after the mark. -/
structure Line where
  level : Option Level
  text : String
  deriving DecidableEq, Repr

namespace Line

/-- What a terminal shows of a raw line in the end: the line end is dropped, then everything up
to the last carriage return. -/
def shownChars (s : List Char) : List Char :=
  ((chomp s).reverse.takeWhile (· != '\r')).reverse

def shown (raw : String) : String := String.ofList (shownChars raw.toList)

/-- The text after the mark of a level, if a text starts with that mark. -/
def announced? (s : List Char) (l : Level) : Option Line :=
  (after? l.mark.toList s).map fun t => ⟨some l, String.ofList t⟩

def classify (raw : String) : Line :=
  let s := shownChars raw.toList
  (Level.all.findSome? (announced? s)).getD ⟨none, String.ofList s⟩

/-- A raw line without its line end. -/
def body (raw : String) : String := String.ofList (chomp raw.toList)

def isBlank (raw : String) : Bool := allBlank raw.toList

/-! ## Lemmas -/

theorem announced?_eq_some_iff {s : List Char} {l : Level} {x : Line} :
    announced? s l = some x ↔ x.level = some l ∧ s = l.mark.toList ++ x.text.toList := by
  rw [announced?, Option.map_eq_some_iff]
  constructor
  · rintro ⟨t, ht, rfl⟩
    exact ⟨rfl, by simpa using eq_append_of_after? ht⟩
  · rintro ⟨hl, hs⟩
    refine ⟨x.text.toList, by rw [hs, after?_append], ?_⟩
    rw [String.ofList_toList, ← hl]

/-- The marks of two levels are never both at the start of one text. -/
theorem announced?_unique {s : List Char} {l k : Level} {x y : Line}
    (hl : announced? s l = some x) (hk : announced? s k = some y) : l = k := by
  rw [announced?_eq_some_iff] at hl hk
  have h := hl.2.symm.trans hk.2
  cases l <;> cases k <;> simp [Level.mark] at h ⊢

/-- A line has a level exactly when what it shows starts with the mark of that level. -/
theorem classify_some_iff {raw : String} {l : Level} {t : String} :
    classify raw = ⟨some l, t⟩ ↔ shown raw = l.mark ++ t := by
  have key : shown raw = l.mark ++ t ↔ announced? (shownChars raw.toList) l = some ⟨some l, t⟩ := by
    rw [announced?_eq_some_iff, shown, String.ext_iff]
    simp
  rw [key, classify]
  constructor
  · intro h
    cases hf : Level.all.findSome? (announced? (shownChars raw.toList)) with
    | none => simp [hf] at h
    | some x =>
      simp only [hf, Option.getD_some] at h
      obtain ⟨k, -, hk⟩ := List.exists_of_findSome?_eq_some hf
      have := (announced?_eq_some_iff.1 hk).1
      rw [h] at this hk
      cases this
      exact hk
  · intro h
    cases hf : Level.all.findSome? (announced? (shownChars raw.toList)) with
    | none =>
      have := List.findSome?_eq_none_iff.1 hf l (by cases l <;> simp [Level.all])
      rw [h] at this
      cases this
    | some x =>
      obtain ⟨k, -, hk⟩ := List.exists_of_findSome?_eq_some hf
      cases announced?_unique h hk
      rw [h] at hk
      cases hk
      rfl

end Line

end BuildTree
