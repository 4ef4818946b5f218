import BuildTree.Diagnostic.Kotlin
import BuildTree.Proofs.SourcePlaces

/-!
# The grammar of Kotlin compiler lines

Behind the letter of its severity a line reads in one of two forms, each with a path, a line, a
column and a message between marks of its own.  A scheme before the path may be taken as a part of
it or not.  Of several ways to read a line the first form is meant; then the path without the
scheme; then the shortest path.

    f.place? (r.extension ++ r.behind) = some r.place   for every reading r of the form f
    parse? text = some (v, d)   iff   d is what the preferred reading says, behind the letter of v
-/

namespace BuildTree.Kotlin

open Text Diagnostic

/-! ## Algorithm -/

def letter : Severity → Char
  | .error => 'e'
  | .warning => 'w'
  | .info => 'i'

/-- The form with the place in parentheses, and the one with the place after colons. -/
inductive Form where
  | classic | plain
  deriving DecidableEq, Repr

namespace Form

def beforeLine : Form → List Char
  | .classic => ": (".toList
  | .plain => ":".toList

def beforeColumn : Form → List Char
  | .classic => ", ".toList
  | .plain => ":".toList

def beforeMessage : Form → List Char
  | .classic => "): ".toList
  | .plain => " ".toList

def place? (f : Form) : List Char → Option Place :=
  Kotlin.place? f.beforeLine f.beforeColumn f.beforeMessage

end Form

/-- A way to split a line behind its severity.  The scheme is no part of the path, whose stem stands
before the extension. -/
structure Reading where
  form : Form
  scheme : Bool
  stem : List Char
  extension : List Char
  line : List Char
  column : List Char
  message : List Char
  pathLike : PathLike stem
  kotlin : extension = ".kt".toList ∨ extension = ".kts".toList
  lineRun : DigitRun line
  columnRun : DigitRun column
  lineFeed : '\n' ∉ message

/-- The scheme, or nothing. -/
def schemeText (scheme : Bool) : List Char := if scheme then Kotlin.scheme else []

namespace Reading

def path (r : Reading) : List Char := r.stem ++ r.extension

/-- What stands behind the path. -/
def behind (r : Reading) : List Char :=
  r.form.beforeLine ++ (r.line ++ (r.form.beforeColumn ++ (r.column ++
    (r.form.beforeMessage ++ r.message))))

def text (r : Reading) : List Char := schemeText r.scheme ++ (r.path ++ r.behind)

/-- The reading that is meant, of all readings of its text. -/
structure Preferred (r : Reading) : Prop where
  classic : r.form = .plain → ∀ r' : Reading, r'.text = r.text → r'.form = .plain
  scheme : r.scheme = false →
    ∀ r' : Reading, r'.text = r.text → r'.form = r.form → r'.scheme = false
  shortest : ∀ r' : Reading, r'.text = r.text → r'.form = r.form → r'.scheme = r.scheme →
    r.path.length ≤ r'.path.length

/-- What a reading says.  Numbers that are not written in ASCII or are too large are left out. -/
structure Says (r : Reading) (d : Diagnostic) : Prop where
  path : d.position.path = String.ofList r.path
  line : ∀ n, d.position.line = some n ↔ Writes r.line n
  column : ∀ n, d.position.column = some n ↔ Writes r.column n
  message : d.message = String.ofList r.message

def place (r : Reading) : Place := ⟨r.extension, r.line, r.column, r.message⟩

end Reading

/-! ## Lemmas -/

variable {s rest : List Char} {r r' : Reading} {f : Form} {scheme : Bool}

theorem severity?_eq_some_iff {c : Char} {v : Severity} : severity? c = some v ↔ c = letter v := by
  constructor
  · intro h
    unfold severity? at h
    split at h <;> cases h <;> rfl
  · rintro rfl
    cases v <;> rfl

theorem extension?_append {extension : List Char}
    (h : extension = ".kt".toList ∨ extension = ".kts".toList)
    (hrest : rest.head? ≠ some 's') : extension? (extension ++ rest) = some (extension, rest) := by
  rcases h with rfl | rfl
  · have hs : after? ['s'] rest = none := by
      cases rest with
      | nil => rfl
      | cons c rest =>
        have hc : 's' ≠ c := fun h => hrest (by rw [h]; rfl)
        simp [after?, hc]
    simp [extension?, after?, hs]
  · simp [extension?, after?]

theorem eq_append_of_extension? {extension : List Char}
    (h : extension? s = some (extension, rest)) :
    s = extension ++ rest ∧ (extension = ".kt".toList ∨ extension = ".kts".toList) := by
  simp only [extension?, Option.bind_eq_bind, Option.bind_eq_some_iff] at h
  obtain ⟨t, ht, h⟩ := h
  obtain rfl := eq_append_of_after? ht
  split at h
  · next u hu =>
    obtain rfl := eq_append_of_after? hu
    cases h
    exact ⟨rfl, Or.inr rfl⟩
  · cases h
    exact ⟨rfl, Or.inl rfl⟩

/-- No mark of a form can be taken for a digit, and the first for no part of an extension. -/
theorem Form.head?_append (f : Form) (s : List Char) :
    (f.beforeLine ++ s).head? ≠ some 's' ∧
    (∀ c, (f.beforeColumn ++ s).head? = some c → isDigit c = false) ∧
    ∀ c, (f.beforeMessage ++ s).head? = some c → isDigit c = false := by
  refine ⟨by cases f <;> simp [beforeLine], fun c hc => ?_, fun c hc => ?_⟩
  · cases f <;> cases hc <;> decide
  · cases f <;> cases hc <;> decide

theorem place?_rest (r : Reading) : r.form.place? (r.extension ++ r.behind) = some r.place := by
  have hextension : extension? (r.extension ++ r.behind) = some (r.extension, r.behind) :=
    extension?_append r.kotlin (r.form.head?_append _).1
  have hline := digits?_append r.lineRun (r.form.head?_append (r.column ++
    (r.form.beforeMessage ++ r.message))).2.1
  have hcolumn := digits?_append r.columnRun (r.form.head?_append r.message).2.2
  have hmessage : oneLine? r.message = some r.message := oneLine?_eq_some_iff.2 ⟨rfl, r.lineFeed⟩
  simp only [Form.place?, place?, Option.bind_eq_bind, hextension, Option.bind_some]
  simp only [Reading.behind, after?_append, Option.bind_some, hline, hcolumn, hmessage,
    Reading.place]

/-- What the reader reads behind a stem belongs to a reading. -/
theorem exists_reading {p : List Char} {place : Place} (f : Form) (scheme : Bool) (hp : PathLike p)
    (h : f.place? s = some place) :
    ∃ r : Reading, r.form = f ∧ r.scheme = scheme ∧ r.stem = p ∧ r.extension ++ r.behind = s ∧
      r.place = place := by
  simp only [Form.place?, place?, Option.bind_eq_bind, Option.bind_eq_some_iff] at h
  obtain ⟨⟨extension, s₁⟩, hextension, s₂, hs₂, ⟨line, s₃⟩, hline, s₄, hs₄, ⟨column, s₅⟩, hcolumn,
    s₆, hs₆, message, hmessage, hplace⟩ := h
  obtain ⟨rfl, hkotlin⟩ := eq_append_of_extension? hextension
  obtain rfl := eq_append_of_after? hs₂
  obtain ⟨rfl, hlineRun, -⟩ := digits?_eq_some_iff.1 hline
  obtain rfl := eq_append_of_after? hs₄
  obtain ⟨rfl, hcolumnRun, -⟩ := digits?_eq_some_iff.1 hcolumn
  obtain rfl := eq_append_of_after? hs₆
  obtain ⟨rfl, hlineFeed⟩ := oneLine?_eq_some_iff.1 hmessage
  cases hplace
  exact ⟨⟨f, scheme, p, extension, line, column, s₆, hp, hkotlin, hlineRun, hcolumnRun, hlineFeed⟩,
    rfl, rfl, rfl, rfl, rfl⟩

/-! ### Readings of one text -/

theorem Reading.text_eq (r : Reading) :
    r.text = schemeText r.scheme ++ (r.stem ++ (r.extension ++ r.behind)) := by
  rw [text, path, List.append_assoc]

theorem newline_not_mem_schemeText : ∀ scheme : Bool, '\n' ∉ schemeText scheme := by
  decide +kernel

/-- With the scheme as a part of the path. -/
theorem exists_without_scheme (r : Reading) :
    ∃ r' : Reading, r'.scheme = false ∧ r'.text = r.text := by
  have hlike : PathLike (schemeText r.scheme ++ r.stem) := by
    refine ⟨by simp [r.pathLike.ne_nil], fun hmem => ?_⟩
    rcases List.mem_append.1 hmem with h | h
    · exact newline_not_mem_schemeText r.scheme h
    · exact r.pathLike.lineFeed h
  exact ⟨⟨r.form, false, schemeText r.scheme ++ r.stem, r.extension, r.line, r.column, r.message,
    hlike, r.kotlin, r.lineRun, r.columnRun, r.lineFeed⟩, rfl, by
      simp [Reading.text, Reading.path, Reading.behind, schemeText]⟩

/-- Readings that agree on form, scheme and text split it alike if their stems are as long. -/
theorem Reading.place_eq (htext : r.text = r'.text) (hform : r.form = r'.form)
    (hscheme : r.scheme = r'.scheme) (hlength : r.stem.length = r'.stem.length) :
    r.stem = r'.stem ∧ r.place = r'.place := by
  have hbody : r.stem ++ (r.extension ++ r.behind) = r'.stem ++ (r'.extension ++ r'.behind) := by
    rwa [text_eq, text_eq, hscheme, List.append_cancel_left_eq] at htext
  obtain ⟨hstem, hrest⟩ := List.append_inj hbody hlength
  refine ⟨hstem, Option.some.inj ?_⟩
  rw [← place?_rest r, ← place?_rest r', hrest, hform]

/-- The shorter stem has the shorter path: the extensions differ by one character, and no text ends
in both. -/
theorem Reading.path_length_lt (htext : r.text = r'.text) (hscheme : r.scheme = r'.scheme)
    (hlt : r.stem.length < r'.stem.length) : r.path.length < r'.path.length := by
  by_contra hle
  have hbody : r.path ++ r.behind = r'.path ++ r'.behind := by
    rwa [text, text, hscheme, List.append_cancel_left_eq] at htext
  -- only `.kts` behind the shorter stem can make up for its length
  obtain ⟨h, h', hlen⟩ : r.extension = ".kts".toList ∧ r'.extension = ".kt".toList ∧
      r.path.length = r'.path.length := by
    simp only [path, List.length_append] at hle ⊢
    rcases r.kotlin with h | h <;> rcases r'.kotlin with h' | h' <;>
      simp [h, h'] at hle ⊢ <;> omega
  have hlast := congrArg List.getLast? (List.append_inj hbody hlen).1
  simp [path, h, h'] at hlast

theorem Reading.stem_length_le_iff (htext : r.text = r'.text) (hform : r.form = r'.form)
    (hscheme : r.scheme = r'.scheme) :
    r.stem.length ≤ r'.stem.length ↔ r.path.length ≤ r'.path.length := by
  rcases Nat.lt_trichotomy r.stem.length r'.stem.length with hlt | heq | hgt
  · have := path_length_lt htext hscheme hlt
    omega
  · obtain ⟨hstem, hplace⟩ := place_eq htext hform hscheme heq
    have hextension : r.extension = r'.extension := congrArg Place.extension hplace
    simp [path, hstem, hextension]
  · have := path_length_lt htext.symm hscheme.symm hgt
    omega

/-! ### The order in which readings are tried -/

/-- The reading with the shortest stem, of those of a form that take the scheme as a part of the
path or not. -/
def shortest? (f : Form) (scheme : Bool) (s : List Char) : Option (List Char × Place) :=
  (after? (schemeText scheme) s).bind (shortestBefore f.place?)

theorem shortest?_eq_some_iff {q : List Char} {place : Place} :
    shortest? f scheme s = some (q, place) ↔
      ∃ r : Reading, r.form = f ∧ r.scheme = scheme ∧ r.text = s ∧ r.stem = q ∧ r.place = place ∧
        ∀ r' : Reading, r'.text = s → r'.form = f → r'.scheme = scheme →
          r.path.length ≤ r'.path.length := by
  simp only [shortest?, Option.bind_eq_some_iff, after?_eq_some_iff, shortestBefore_eq_some_iff_le]
  constructor
  · rintro ⟨t, rfl, rest, rfl, hq, hplace, hle⟩
    obtain ⟨r, rfl, rfl, rfl, rfl, rfl⟩ := exists_reading f scheme hq hplace
    refine ⟨r, rfl, rfl, r.text_eq, rfl, rfl, fun r' htext hform hscheme => ?_⟩
    have hbody := htext
    rw [r'.text_eq, hscheme, List.append_cancel_left_eq] at hbody
    have hstem := hle _ _ hbody.symm r'.pathLike (Option.isSome_of_eq_some (hform ▸ place?_rest r'))
    rw [← r.text_eq] at htext
    exact (Reading.stem_length_le_iff htext.symm hform.symm hscheme.symm).1 hstem
  · rintro ⟨r, rfl, rfl, rfl, rfl, rfl, hle⟩
    refine ⟨_, r.text_eq, _, rfl, r.pathLike, place?_rest r, fun q t hbody hq ht => ?_⟩
    obtain ⟨place, hplace⟩ := Option.isSome_iff_exists.1 ht
    obtain ⟨r', hform, hscheme, rfl, rfl, -⟩ := exists_reading r.form r.scheme hq hplace
    have htext : r'.text = r.text := by rw [r'.text_eq, r.text_eq, hscheme, hbody]
    exact (Reading.stem_length_le_iff htext.symm hform.symm hscheme.symm).2
      (hle r' htext hform hscheme)

theorem isSome_shortest?_iff :
    (shortest? f scheme s).isSome ↔ ∃ r : Reading, r.form = f ∧ r.scheme = scheme ∧ r.text = s := by
  constructor
  · intro h
    obtain ⟨⟨q, place⟩, hshortest⟩ := Option.isSome_iff_exists.1 h
    obtain ⟨r, hform, hscheme, htext, -⟩ := shortest?_eq_some_iff.1 hshortest
    exact ⟨r, hform, hscheme, htext⟩
  · rintro ⟨r, rfl, rfl, rfl⟩
    rw [shortest?, r.text_eq, after?_append, Option.bind_some, isSome_shortestBefore_iff]
    exact ⟨_, _, rfl, r.pathLike, Option.isSome_of_eq_some (place?_rest r)⟩

theorem located?_eq (f : Form) (s : List Char) :
    located? f.place? s = (shortest? f true s).or (shortest? f false s) := rfl

theorem isSome_located?_iff :
    (located? f.place? s).isSome ↔ ∃ r : Reading, r.form = f ∧ r.text = s := by
  rw [located?_eq, Option.isSome_or, Bool.or_eq_true, isSome_shortest?_iff, isSome_shortest?_iff]
  constructor
  · rintro (⟨r, hform, -, htext⟩ | ⟨r, hform, -, htext⟩)
    · exact ⟨r, hform, htext⟩
    · exact ⟨r, hform, htext⟩
  · rintro ⟨r, hform, htext⟩
    cases hscheme : r.scheme with
    | true => exact Or.inl ⟨r, hform, hscheme, htext⟩
    | false => exact Or.inr ⟨r, hform, hscheme, htext⟩

/-- Within a form the reading without the scheme in its path comes first, then the shortest one. -/
theorem located?_eq_some_iff {q : List Char} {place : Place} :
    located? f.place? s = some (q, place) ↔
      ∃ r : Reading, r.form = f ∧ r.text = s ∧ r.stem = q ∧ r.place = place ∧
        (r.scheme = false → ∀ r' : Reading, r'.text = s → r'.form = f → r'.scheme = false) ∧
        ∀ r' : Reading, r'.text = s → r'.form = f → r'.scheme = r.scheme →
          r.path.length ≤ r'.path.length := by
  rw [located?_eq, Option.or_eq_some_iff, ← Option.not_isSome_iff_eq_none, isSome_shortest?_iff,
    shortest?_eq_some_iff, shortest?_eq_some_iff]
  constructor
  · rintro (⟨r, hform, hscheme, htext, hq, hplace, hle⟩ |
      ⟨hnone, r, hform, hscheme, htext, hq, hplace, hle⟩)
    · exact ⟨r, hform, htext, hq, hplace, by simp [hscheme], by rwa [hscheme]⟩
    · refine ⟨r, hform, htext, hq, hplace, fun _ r' htext' hform' => ?_, by rwa [hscheme]⟩
      by_contra hdropped
      exact hnone ⟨r', hform', by simpa using hdropped, htext'⟩
  · rintro ⟨r, hform, htext, hq, hplace, hfirst, hle⟩
    cases hscheme : r.scheme with
    | true => exact Or.inl ⟨r, hform, hscheme, htext, hq, hplace, by rwa [hscheme] at hle⟩
    | false =>
      refine Or.inr ⟨?_, r, hform, hscheme, htext, hq, hplace, by rwa [hscheme] at hle⟩
      rintro ⟨r', hform', hscheme', htext'⟩
      have := hfirst hscheme r' htext' hform'
      rw [hscheme'] at this
      cases this

theorem place?_classic : Form.classic.place? = classic? := rfl

theorem place?_plain : Form.plain.place? = plain? := rfl

/-- The classic form comes before the other. -/
theorem located?_or_eq_some_iff {q : List Char} {place : Place} :
    (located? classic? s).or (located? plain? s) = some (q, place) ↔
      ∃ r : Reading, r.text = s ∧ r.stem = q ∧ r.place = place ∧ r.Preferred := by
  rw [Option.or_eq_some_iff, ← Option.not_isSome_iff_eq_none, ← place?_classic, ← place?_plain,
    isSome_located?_iff, located?_eq_some_iff, located?_eq_some_iff]
  constructor
  · rintro (⟨r, hform, rfl, hq, hplace, hscheme, hle⟩ |
      ⟨hnone, r, hform, rfl, hq, hplace, hscheme, hle⟩)
    · exact ⟨r, rfl, hq, hplace, by simp [hform], by rwa [hform], by rwa [hform]⟩
    · refine ⟨r, rfl, hq, hplace, fun _ r' htext => ?_, by rwa [hform], by rwa [hform]⟩
      cases hform' : r'.form with
      | classic => exact absurd ⟨r', hform', htext⟩ hnone
      | plain => rfl
  · rintro ⟨r, rfl, hq, hplace, hfirst, hscheme, hle⟩
    cases hform : r.form with
    | classic =>
      rw [hform] at hscheme hle
      exact Or.inl ⟨r, hform, rfl, hq, hplace, hscheme, hle⟩
    | plain =>
      rw [hform] at hscheme hle
      refine Or.inr ⟨?_, r, hform, rfl, hq, hplace, hscheme, hle⟩
      rintro ⟨r', hform', htext⟩
      have := hfirst hform r' htext
      rw [hform'] at this
      cases this

theorem exists_preferred (r : Reading) : ∃ r' : Reading, r'.text = r.text ∧ r'.Preferred := by
  have hsome : ((located? classic? r.text).or (located? plain? r.text)).isSome := by
    rw [Option.isSome_or, Bool.or_eq_true, ← place?_classic, ← place?_plain, isSome_located?_iff,
      isSome_located?_iff]
    cases hform : r.form with
    | classic => exact Or.inl ⟨r, hform, rfl⟩
    | plain => exact Or.inr ⟨r, hform, rfl⟩
  obtain ⟨⟨q, place⟩, h⟩ := Option.isSome_iff_exists.1 hsome
  obtain ⟨r', htext, -, -, hpreferred⟩ := located?_or_eq_some_iff.1 h
  exact ⟨r', htext, hpreferred⟩

/-- A reading says one diagnostic. -/
theorem Reading.says_iff {d : Diagnostic} :
    r.Says d ↔ d = ⟨⟨String.ofList (r.stem ++ r.place.extension), coordinate? r.place.line,
      coordinate? r.place.column⟩, String.ofList r.place.message⟩ := by
  obtain ⟨⟨path, line, column⟩, message⟩ := d
  simp only [Diagnostic.mk.injEq, Position.mk.injEq]
  constructor
  · rintro ⟨hpath, hline, hcolumn, hmessage⟩
    exact ⟨⟨hpath, (eq_coordinate?_iff r.lineRun).2 hline,
      (eq_coordinate?_iff r.columnRun).2 hcolumn⟩, hmessage⟩
  · rintro ⟨⟨hpath, hline, hcolumn⟩, hmessage⟩
    exact ⟨hpath, (eq_coordinate?_iff r.lineRun).1 hline,
      (eq_coordinate?_iff r.columnRun).1 hcolumn, hmessage⟩

theorem parse?_eq_some_iff {text : String} {v : Severity} {d : Diagnostic} :
    parse? text = some (v, d) ↔ ∃ r : Reading,
      trim text.toList = letter v :: ':' :: ' ' :: r.text ∧ r.Preferred ∧ r.Says d := by
  simp only [Reading.says_iff]
  rw [parse?]
  split
  · next k s hs =>
    simp only [hs, Option.bind_eq_bind, Option.bind_eq_some_iff, severity?_eq_some_iff, Prod.exists,
      located?_or_eq_some_iff, List.cons.injEq, true_and, Option.some.injEq, Prod.mk.injEq]
    constructor
    · rintro ⟨v', rfl, q, place, ⟨r, rfl, rfl, rfl, hpreferred⟩, rfl, rfl⟩
      exact ⟨r, ⟨rfl, rfl⟩, hpreferred, rfl⟩
    · rintro ⟨r, ⟨rfl, rfl⟩, hpreferred, rfl⟩
      exact ⟨v, rfl, _, _, ⟨r, rfl, rfl, rfl, hpreferred⟩, rfl, rfl⟩
  · next h =>
    simp only [reduceCtorEq, false_iff]
    rintro ⟨r, hr, -⟩
    exact h _ _ hr

/-! ## Top theorem -/

/-- A line is a diagnostic exactly if it reads in one of the two forms; it is what the classic form
says if it reads in that, otherwise what the other one says, of the path without a scheme before it
if it reads so, and of the shortest path that is left. -/
theorem kotlin_grammar (text : String) :
    ((parse? text).isSome ↔ ∃ (v : Severity) (r : Reading), r.scheme = false ∧
      trim text.toList = letter v :: ':' :: ' ' :: r.text) ∧
    ∀ v d, parse? text = some (v, d) ↔ ∃ r : Reading,
      trim text.toList = letter v :: ':' :: ' ' :: r.text ∧ r.Preferred ∧ r.Says d := by
  refine ⟨?_, fun v d => parse?_eq_some_iff⟩
  constructor
  · intro h
    obtain ⟨⟨v, d⟩, hd⟩ := Option.isSome_iff_exists.1 h
    obtain ⟨r, hr, -⟩ := parse?_eq_some_iff.1 hd
    obtain ⟨r', hscheme, htext⟩ := exists_without_scheme r
    exact ⟨v, r', hscheme, htext ▸ hr⟩
  · rintro ⟨v, r, -, hr⟩
    obtain ⟨r', htext, hpreferred⟩ := exists_preferred r
    rw [← htext] at hr
    exact Option.isSome_of_eq_some
      (parse?_eq_some_iff.2 ⟨r', hr, hpreferred, Reading.says_iff.2 rfl⟩)

/-- The scheme alone is no path, so the path goes on to the next extension. -/
example : parse? "e: file://.kt: (1, 2): x.kt: (3, 4): y" =
    some (.error, ⟨⟨".kt: (1, 2): x.kt", some 3, some 4⟩, "y"⟩) := by
  decide +kernel

end BuildTree.Kotlin
