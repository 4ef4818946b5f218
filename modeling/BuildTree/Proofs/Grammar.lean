import BuildTree.Proofs.Encoding
import BuildTree.Proofs.Pieces
import Mathlib.Data.List.TakeWhile

/-!
# The grammar of spy lines

What a spy line says, without the reader that finds it out.  A line that reads has its marks, digits
and a token in their places, then nothing or a mark and any text.  Any other line has a first thing
that is wrong with it.  Both together are a relation, `Reads`, and the reader decides it.

    decode raw = r              iff   Reads (raw without its line end) r        (decode_eq_iff)
    m.value? key = some value   iff   the last field of that key has that value  (value?_eq_some_iff)
-/

namespace BuildTree.Spy

open Text

/-! ## Algorithm -/

/-- A text that is the number of a thread. -/
structure ThreadNumber (digits : List Char) : Prop where
  ne_nil : digits ≠ []
  ascii : ∀ c ∈ digits, c.isDigit = true
  bounded : decimalValue digits < threadBound

/-- The fields that some tokens are: those with exactly one `=`, the line feeds of the value
restored. -/
inductive Fields : List (List Char) → List (String × String) → Prop
  | nil : Fields [] []
  | skip {token tokens fields} (h : token.count '=' ≠ 1) (hrest : Fields tokens fields) :
      Fields (token :: tokens) fields
  | field {key value pieces tokens fields} (hkey : '=' ∉ key) (hvalue : '=' ∉ value)
      (hpieces : Pieces lineFeedMark value pieces) (hrest : Fields tokens fields) :
      Fields ((key ++ '=' :: value) :: tokens)
        ((String.ofList key, String.ofList (List.intercalate ['\n'] pieces)) :: fields)

/-- What may follow the kind: nothing, or a mark and the fields that the tokens behind it are. -/
inductive Tail : List Char → List (String × String) → Prop
  | nothing : Tail [] []
  | fields {text tokens fields} (hpieces : Pieces fieldMark text tokens)
      (hfields : Fields tokens fields) : Tail (fieldMark ++ text) fields

/-- A line up to its kind, and then a tail. -/
def spelled (digits : List Char) (kind : Kind) (tail : List Char) : List Char :=
  lineMark ++ (digits ++ (fieldMark ++ (kind.name.toList ++ tail)))

/-- A text with no number of a thread before its first hyphen; `thread` is what stands there. -/
inductive BadThread : (body thread : List Char) → Prop
  | noHyphen {body} (h : '-' ∉ body) : BadThread body body
  | noNumber {thread rest} (hhyphen : '-' ∉ thread) (h : ¬ ThreadNumber thread) :
      BadThread (thread ++ '-' :: rest) thread

/-- What a line without its line end is read as. -/
inductive Reads : List Char → Except DecodeError Message → Prop
  | notSpyLine {s} (h : ¬ lineMark <+: s) : Reads s (.error .notSpyLine)
  | badThread {body thread} (h : BadThread body thread) :
      Reads (lineMark ++ body) (.error (.invalidThread (String.ofList thread)))
  | noSeparator {digits rest} (hdigits : ThreadNumber digits) (h : ¬ fieldMark <+: '-' :: rest) :
      Reads (lineMark ++ (digits ++ '-' :: rest)) (.error .missingSeparator)
  | unknownKind {digits text token tokens} (hdigits : ThreadNumber digits)
      (hpieces : Pieces fieldMark text (token :: tokens))
      (h : ∀ kind : Kind, kind.name.toList ≠ token) :
      Reads (lineMark ++ (digits ++ (fieldMark ++ text)))
        (.error (.unknownKind (String.ofList token)))
  | message {digits kind tail fields} (hdigits : ThreadNumber digits) (htail : Tail tail fields) :
      Reads (spelled digits kind tail) (.ok ⟨decimalValue digits, kind, fields⟩)

/-! ## Lemmas -/

section
variable {s body digits head rest text token value : List Char} {tokens : List (List Char)}
  {fields : List (String × String)} {kind : Kind} {tail : List Char} {raw : String}

theorem fieldMark_ne_nil : fieldMark ≠ [] := by decide

theorem lineFeedMark_ne_nil : lineFeedMark ≠ [] := by decide

theorem ThreadNumber.hyphen_not_mem (h : ThreadNumber digits) : '-' ∉ digits := fun hmem => by
  have := h.ascii _ hmem
  simp at this

theorem below?_eq_some_iff_threadNumber {n : Nat} :
    below? threadBound digits = some n ↔ ThreadNumber digits ∧ decimalValue digits = n := by
  rw [below?_eq_some_iff]
  constructor
  · rintro ⟨⟨hne, hascii⟩, rfl, hlt⟩
    exact ⟨⟨hne, hascii, hlt⟩, rfl⟩
  · rintro ⟨h, rfl⟩
    exact ⟨⟨h.ne_nil, h.ascii⟩, rfl, h.bounded⟩

/-! ### The thread -/

theorem readThread_of_number (h : ThreadNumber digits) (rest : List Char) :
    readThread (digits ++ '-' :: rest) = .ok (decimalValue digits) := by
  have hbelow := below?_eq_some_iff_threadNumber.2 ⟨h, rfl⟩
  simp [readThread, takeWhile_hyphen h.hyphen_not_mem, hbelow]

theorem readThread_of_badThread {thread : List Char} (h : BadThread body thread) :
    readThread body = .error (.invalidThread (String.ofList thread)) := by
  cases h with
  | noHyphen h =>
    have hall : body.takeWhile (· != '-') = body :=
      List.takeWhile_eq_self_iff.2 fun c hc => by simpa using ne_of_mem_of_not_mem hc h
    rw [readThread, hall]
    cases below? threadBound body <;> simp [h]
  | @noNumber thread rest hhyphen h =>
    have hbelow : below? threadBound thread = none := by
      rw [Option.eq_none_iff_forall_ne_some]
      exact fun n hn => h (below?_eq_some_iff_threadNumber.1 hn).1
    simp [readThread, takeWhile_hyphen hhyphen, hbelow]

/-! ### The fields -/

theorem count_sign (hkey : '=' ∉ head) (hvalue : '=' ∉ rest) :
    (head ++ '=' :: rest).count '=' = 1 := by
  simp [List.count_eq_zero.2 hkey, List.count_eq_zero.2 hvalue]

theorem field?_eq_none (h : token.count '=' ≠ 1) : field? token = none := by
  rw [field?]
  split
  · rfl
  · next key value hcut =>
    obtain ⟨rfl, hfirst⟩ := cut?_eq_some_iff.1 hcut
    have hkey : '=' ∉ key := by
      intro hmem
      -- a sign in the key would be an earlier place to cut
      obtain ⟨x, y, rfl⟩ := List.append_of_mem hmem
      have hle := hfirst x (y ++ ['='] ++ value) (by simp)
      simp only [List.length_append, List.length_cons] at hle
      omega
    split
    · rfl
    · next hvalue => exact absurd (count_sign hkey hvalue) h

theorem Fields.filterMap_eq (h : Fields tokens fields) : tokens.filterMap field? = fields := by
  induction h with
  | nil => rfl
  | skip h _ ih => rw [List.filterMap_cons_none (field?_eq_none h), ih]
  | @field key value pieces tokens fields hkey hvalue hpieces _ ih =>
    have hsplit := (splitAll_eq_iff lineFeedMark_ne_nil).2 hpieces
    have hfield : field? (key ++ '=' :: value) =
        some (String.ofList key, String.ofList (List.intercalate ['\n'] pieces)) := by
      rw [field?, cut?_singleton hkey]
      simp [hvalue, replaceAll, hsplit]
    rw [List.filterMap_cons_some hfield, ih]

theorem exists_fields (tokens : List (List Char)) : ∃ fields, Fields tokens fields := by
  induction tokens with
  | nil => exact ⟨[], .nil⟩
  | cons token tokens ih =>
    obtain ⟨fields, hfields⟩ := ih
    by_cases hcount : token.count '=' = 1
    · have hmem : '=' ∈ token := List.count_pos_iff.1 (by omega)
      obtain ⟨key, value, rfl⟩ := List.append_of_mem hmem
      have hzero : key.count '=' = 0 ∧ value.count '=' = 0 := by
        simp only [List.count_append, List.count_cons_self] at hcount
        omega
      exact ⟨_, .field (List.count_eq_zero.1 hzero.1) (List.count_eq_zero.1 hzero.2)
        (pieces_splitAll lineFeedMark_ne_nil value) hfields⟩
    · exact ⟨fields, .skip hcount hfields⟩

theorem pieces_name_iff (kind : Kind) :
    Pieces fieldMark text (kind.name.toList :: tokens) ↔ (text = kind.name.toList ∧ tokens = []) ∨
      ∃ rest, text = kind.name.toList ++ (fieldMark ++ rest) ∧ Pieces fieldMark rest tokens := by
  rw [fieldMark_eq]
  exact pieces_cons_iff hyphen_not_mem_markCore (not_infix_name kind)

/-- Before a tail the token of a kind is a piece of its own. -/
theorem exists_pieces_of_tail (kind : Kind) (h : Tail tail fields) :
    ∃ tokens, Pieces fieldMark (kind.name.toList ++ tail) (kind.name.toList :: tokens) ∧
      Fields tokens fields := by
  cases h with
  | nothing => exact ⟨[], (pieces_name_iff kind).2 (Or.inl ⟨List.append_nil _, rfl⟩), .nil⟩
  | fields hpieces hfields =>
    exact ⟨_, (pieces_name_iff kind).2 (Or.inr ⟨_, rfl, hpieces⟩), hfields⟩

theorem exists_tail_of_pieces (h : Pieces fieldMark text (kind.name.toList :: tokens)) :
    ∃ tail fields, text = kind.name.toList ++ tail ∧ Tail tail fields := by
  obtain ⟨fields, hfields⟩ := exists_fields tokens
  rcases (pieces_name_iff kind).1 h with ⟨rfl, rfl⟩ | ⟨rest, rfl, hpieces⟩
  · exact ⟨[], [], (List.append_nil _).symm, .nothing⟩
  · exact ⟨fieldMark ++ rest, fields, rfl, .fields hpieces hfields⟩

theorem exists_tail_iff : (∃ fields, Tail tail fields) ↔ tail = [] ∨ fieldMark <+: tail := by
  constructor
  · rintro ⟨fields, h⟩
    cases h with
    | nothing => exact Or.inl rfl
    | fields => exact Or.inr (List.prefix_append _ _)
  · rintro (rfl | ⟨text, rfl⟩)
    · exact ⟨[], .nothing⟩
    · obtain ⟨fields, hfields⟩ := exists_fields (splitAll fieldMark text)
      exact ⟨fields, .fields (pieces_splitAll fieldMark_ne_nil text) hfields⟩

/-! ### The line -/

theorem after?_eq_none_iff {m : List Char} : after? m s = none ↔ ¬ m <+: s := by
  rw [Option.eq_none_iff_forall_ne_some]
  simp only [ne_eq, after?_eq_some_iff]
  exact ⟨fun h ⟨r, hr⟩ => h r hr.symm, fun h r hr => h ⟨r, hr.symm⟩⟩

theorem readKind_eq_error (h : ∀ kind : Kind, kind.name.toList ≠ token) :
    readKind (String.ofList token) = .error (.unknownKind (String.ofList token)) := by
  have hnone : Kind.ofName? (String.ofList token) = none := by
    rw [Option.eq_none_iff_forall_ne_some]
    intro kind hkind
    refine h kind ?_
    rw [Kind.ofName?_eq_some_iff.1 hkind, String.toList_ofList]
  rw [readKind, hnone]

theorem decode_of_reads {r : Except DecodeError Message} (h : Reads (chomp raw.toList) r) :
    decode raw = r := by
  generalize hs : chomp raw.toList = s at h
  rw [decode, hs]
  cases h with
  | notSpyLine h => rw [after?_eq_none_iff.2 h]
  | badThread h =>
    rw [after?_append]
    simp only [readThread_of_badThread h]
    rfl
  | noSeparator hdigits h =>
    rw [after?_append]
    simp only [readThread_of_number hdigits, dropWhile_hyphen hdigits.hyphen_not_mem,
      after?_eq_none_iff.2 h]
    rfl
  | @unknownKind digits text token tokens hdigits hpieces h =>
    have hdrop : (digits ++ (fieldMark ++ text)).dropWhile (· != '-') = fieldMark ++ text :=
      dropWhile_hyphen hdigits.hyphen_not_mem _
    have hthread : readThread (digits ++ (fieldMark ++ text)) = .ok (decimalValue digits) :=
      readThread_of_number hdigits _
    rw [after?_append]
    simp only [hthread, hdrop, after?_append, (splitAll_eq_iff fieldMark_ne_nil).2 hpieces,
      List.headD_cons, readKind_eq_error h]
    rfl
  | @message digits kind tail fields hdigits htail =>
    obtain ⟨tokens, hpieces, hfields⟩ := exists_pieces_of_tail kind htail
    have hdrop : (digits ++ (fieldMark ++ (kind.name.toList ++ tail))).dropWhile (· != '-') =
        fieldMark ++ (kind.name.toList ++ tail) := dropWhile_hyphen hdigits.hyphen_not_mem _
    have hthread : readThread (digits ++ (fieldMark ++ (kind.name.toList ++ tail))) =
        .ok (decimalValue digits) := readThread_of_number hdigits _
    rw [spelled, after?_append]
    simp only [hthread, hdrop, after?_append, (splitAll_eq_iff fieldMark_ne_nil).2 hpieces,
      List.headD_cons, List.tail_cons,
      hfields.filterMap_eq, readKind, String.ofList_toList, Kind.ofName?_name]
    rfl

/-- Every line reads as something. -/
theorem exists_reads (s : List Char) : ∃ r, Reads s r := by
  by_cases hmark : lineMark <+: s
  swap
  · exact ⟨_, .notSpyLine hmark⟩
  obtain ⟨body, rfl⟩ := hmark
  by_cases hmem : '-' ∈ body
  swap
  · exact ⟨_, .badThread (.noHyphen hmem)⟩
  obtain ⟨digits, rest, rfl, hhyphen⟩ := List.eq_append_cons_of_mem hmem
  by_cases hdigits : ThreadNumber digits
  swap
  · exact ⟨_, .badThread (.noNumber hhyphen hdigits)⟩
  by_cases hseparator : fieldMark <+: '-' :: rest
  swap
  · exact ⟨_, .noSeparator hdigits hseparator⟩
  obtain ⟨text, htext⟩ := hseparator
  rw [← htext]
  obtain ⟨token, tokens, hsplit⟩ := List.exists_cons_of_ne_nil (splitAll_ne_nil fieldMark text)
  have hpieces := (splitAll_eq_iff fieldMark_ne_nil).1 hsplit
  by_cases hkind : ∃ kind : Kind, kind.name.toList = token
  · obtain ⟨kind, rfl⟩ := hkind
    obtain ⟨tail, fields, rfl, htail⟩ := exists_tail_of_pieces hpieces
    exact ⟨_, .message hdigits htail⟩
  · exact ⟨_, .unknownKind hdigits hpieces fun kind hname => hkind ⟨kind, hname⟩⟩

/-- The reader decides the grammar. -/
theorem decode_eq_iff {r : Except DecodeError Message} :
    decode raw = r ↔ Reads (chomp raw.toList) r := by
  refine ⟨fun h => ?_, decode_of_reads⟩
  obtain ⟨r', hr'⟩ := exists_reads (chomp raw.toList)
  rwa [← h, decode_of_reads hr']

theorem isSpyLine_eq_false_iff : isSpyLine raw = false ↔ ¬ lineMark <+: chomp raw.toList := by
  rw [isSpyLine, Option.isSome_eq_false_iff, Option.isNone_iff_eq_none, after?_eq_none_iff,
    not_iff_not]
  constructor
  · rintro ⟨rest, hrest⟩
    rw [← hrest, chomp_lineMark]
    exact List.prefix_append _ _
  · intro h
    obtain ⟨lineEnd, hraw, -⟩ := exists_append_dropEndWhile isLineEnd raw.toList
    rw [hraw]
    exact h.trans (List.prefix_append _ _)

/-! ### What each outcome says of a line -/

theorem reads_ok_iff {m : Message} :
    Reads s (.ok m) ↔ ∃ digits tail, ThreadNumber digits ∧ s = spelled digits m.kind tail ∧
      m.thread = decimalValue digits ∧ Tail tail m.fields := by
  constructor
  · rintro ⟨⟩
    next hdigits htail => exact ⟨_, _, hdigits, rfl, rfl, htail⟩
  · obtain ⟨thread, kind, fields⟩ := m
    rintro ⟨digits, tail, hdigits, rfl, rfl, htail⟩
    exact .message hdigits htail

theorem exists_reads_ok_iff :
    (∃ m, Reads s (.ok m)) ↔ ∃ digits kind tail, ThreadNumber digits ∧
      s = spelled digits kind tail ∧ (tail = [] ∨ fieldMark <+: tail) := by
  constructor
  · rintro ⟨m, h⟩
    obtain ⟨digits, tail, hdigits, hs, -, htail⟩ := reads_ok_iff.1 h
    exact ⟨digits, m.kind, tail, hdigits, hs, exists_tail_iff.1 ⟨_, htail⟩⟩
  · rintro ⟨digits, kind, tail, hdigits, rfl, htail⟩
    obtain ⟨fields, htail⟩ := exists_tail_iff.2 htail
    exact ⟨_, .message hdigits htail⟩

theorem reads_notSpyLine_iff : Reads s (.error .notSpyLine) ↔ ¬ lineMark <+: s := by
  constructor
  · rintro ⟨⟩
    assumption
  · exact .notSpyLine

theorem reads_invalidThread_iff {t : String} :
    Reads s (.error (.invalidThread t)) ↔
      ∃ body, s = lineMark ++ body ∧ BadThread body t.toList := by
  constructor
  · rintro ⟨⟩
    next h => exact ⟨_, rfl, by rwa [String.toList_ofList]⟩
  · rintro ⟨body, rfl, h⟩
    simpa using Reads.badThread h

theorem reads_missingSeparator_iff :
    Reads s (.error .missingSeparator) ↔ ∃ digits rest, ThreadNumber digits ∧
      s = lineMark ++ (digits ++ '-' :: rest) ∧ ¬ fieldMark <+: '-' :: rest := by
  constructor
  · rintro ⟨⟩
    next hdigits h => exact ⟨_, _, hdigits, rfl, h⟩
  · rintro ⟨digits, rest, hdigits, rfl, h⟩
    exact .noSeparator hdigits h

theorem reads_unknownKind_iff {t : String} :
    Reads s (.error (.unknownKind t)) ↔ ∃ digits rest tokens, ThreadNumber digits ∧
      s = lineMark ++ (digits ++ (fieldMark ++ rest)) ∧
      Pieces fieldMark rest (t.toList :: tokens) ∧ ∀ kind : Kind, kind.name ≠ t := by
  constructor
  · rintro ⟨⟩
    next hdigits hpieces h =>
      refine ⟨_, _, _, hdigits, rfl, by rwa [String.toList_ofList], fun kind hname => h kind ?_⟩
      rw [hname, String.toList_ofList]
  · rintro ⟨digits, rest, tokens, hdigits, rfl, hpieces, h⟩
    have hkind : ∀ kind : Kind, kind.name.toList ≠ t.toList := fun kind hname =>
      h kind (String.toList_inj.1 hname)
    simpa using Reads.unknownKind hdigits hpieces hkind

end

/-! ## Top theorem -/

/-- A line is read exactly if number, kind and marks stand where they have to, its fields are the
tokens with one `=`, and of fields with one key the last one counts.  Any other line is none of the
spy channel; or else its thread is no number; or else the mark before the kind is missing; or else
the kind is unknown. -/
theorem decode_grammar (raw : String) :
    ((∃ m, decode raw = .ok m) ↔ ∃ digits kind tail, ThreadNumber digits ∧
      chomp raw.toList = spelled digits kind tail ∧ (tail = [] ∨ fieldMark <+: tail)) ∧
    (∀ m, decode raw = .ok m ↔ ∃ digits tail, ThreadNumber digits ∧
      chomp raw.toList = spelled digits m.kind tail ∧ m.thread = decimalValue digits ∧
      Tail tail m.fields) ∧
    (∀ m, decode raw = .ok m →
      ∀ key value, m.value? key = some value ↔ LastField m.fields key value) ∧
    (decode raw = .error .notSpyLine ↔ isSpyLine raw = false) ∧
    (∀ t, decode raw = .error (.invalidThread t) ↔
      ∃ body, chomp raw.toList = lineMark ++ body ∧ BadThread body t.toList) ∧
    (decode raw = .error .missingSeparator ↔ ∃ digits rest, ThreadNumber digits ∧
      chomp raw.toList = lineMark ++ (digits ++ '-' :: rest) ∧ ¬ fieldMark <+: '-' :: rest) ∧
    (∀ t, decode raw = .error (.unknownKind t) ↔ ∃ digits rest tokens, ThreadNumber digits ∧
      chomp raw.toList = lineMark ++ (digits ++ (fieldMark ++ rest)) ∧
      Pieces fieldMark rest (t.toList :: tokens) ∧ ∀ kind : Kind, kind.name ≠ t) := by
  refine ⟨?_, fun m => ?_, fun m _ key value => Message.value?_eq_some_iff, ?_, fun t => ?_, ?_,
    fun t => ?_⟩
  · simp only [decode_eq_iff]
    exact exists_reads_ok_iff
  · exact decode_eq_iff.trans reads_ok_iff
  · exact decode_eq_iff.trans (reads_notSpyLine_iff.trans isSpyLine_eq_false_iff.symm)
  · exact decode_eq_iff.trans reads_invalidThread_iff
  · exact decode_eq_iff.trans reads_missingSeparator_iff
  · exact decode_eq_iff.trans reads_unknownKind_iff

/-- Of fields with one key the last counts, and a token with two signs is none. -/
example :
    decode "[IJ]-007-[IJ]-MojoFailed-[IJ]-id=a-[IJ]-x=y=z-[IJ]-id=-[N]-\r\n" =
      .ok ⟨7, .mojoFailed, [("id", "a"), ("id", "\n")]⟩ := by
  decide +kernel

end BuildTree.Spy
