import BuildTree.Proofs.Marks
import BuildTree.Spy.Message

/-!
# Messages read back

What the listener writes is what the tracker is told: a message is read back from its line, with
its thread, its kind and its fields (`decode_encode`).  The marks of the line are framed by hyphens
and the thread ends at one, so neither can be mistaken for another as long as no key and no value
holds a mark of its own (`Writable`).
-/

namespace BuildTree.Spy

open Text

/-! ## Algorithm -/

/-- The line of a message, as the listener writes it. -/
def Message.line (m : Message) : String := encode m.thread m.kind m.fields

/-- The mark of the spy channel, without its hyphens. -/
def markCore : List Char := "[IJ]".toList

/-- The mark of a line feed, without its hyphens. -/
def lineFeedCore : List Char := "[N]".toList

/-- A field that its text determines. -/
structure Writable (f : String × String) : Prop where
  key_sign : '=' ∉ f.1.toList
  value_sign : '=' ∉ f.2.toList
  key_mark : ¬ markCore <:+: f.1.toList
  value_mark : ¬ markCore <:+: f.2.toList
  value_lineFeed : ¬ lineFeedCore <:+: f.2.toList

/-- The last field of a key has a value. -/
def LastField (fields : List (String × String)) (key value : String) : Prop :=
  ∃ pre post, fields = pre ++ (key, value) :: post ∧ ∀ f ∈ post, f.1 ≠ key

/-- The text of a field, between two marks. -/
def fieldText (f : String × String) : List Char :=
  f.1.toList ++ '=' :: replaceAll ['\n'] lineFeedMark f.2.toList

/-! ## Lemmas -/

section
variable {f : String × String} {fields : List (String × String)} {thread : Nat} {kind : Kind}

/-- Of fields with one key the last one counts. -/
theorem Message.value?_eq_some_iff {m : Message} {key value : String} :
    m.value? key = some value ↔ LastField m.fields key value := by
  rw [Message.value?, List.lookup_eq_some_iff]
  constructor
  · rintro ⟨post, pre, hfields, hpost⟩
    refine ⟨pre.reverse, post.reverse, by rw [← List.reverse_inj, hfields]; simp, fun f hf => ?_⟩
    have hne := hpost f (List.mem_reverse.1 hf)
    exact fun h => by simp [h] at hne
  · rintro ⟨pre, post, hfields, hpost⟩
    refine ⟨post.reverse, pre.reverse, by simp [hfields], fun f hf => ?_⟩
    simpa using (hpost f (List.mem_reverse.1 hf)).symm

theorem Message.mem_keys {m : Message} {key : String} :
    key ∈ m.keys ↔ key ∈ m.fields.map (·.1) := by
  rw [Message.keys, List.mem_mergeSort, List.mem_eraseDups]

theorem fieldMark_eq : fieldMark = framed '-' markCore := by decide

theorem lineFeedMark_eq : lineFeedMark = framed '-' lineFeedCore := by decide

theorem hyphen_not_mem_markCore : '-' ∉ markCore := by decide

theorem hyphen_not_mem_lineFeedCore : '-' ∉ lineFeedCore := by decide

theorem not_infix_name (kind : Kind) : ¬ markCore <:+: kind.name.toList := by
  cases kind <;> decide

/-- The value of a field gets no mark by the way it is written. -/
theorem Writable.not_infix_value (hw : Writable f) :
    ¬ markCore <:+: replaceAll ['\n'] lineFeedMark f.2.toList := by
  rw [replaceAll, lineFeedMark_eq]
  refine not_infix_intercalate hyphen_not_mem_markCore (by decide) (by decide) fun p hp h => ?_
  exact hw.value_mark (h.trans (infix_of_mem_splitAll hp))

theorem Writable.not_infix_fieldText (h : Writable f) : ¬ markCore <:+: fieldText f := by
  have hsign : '=' ∉ markCore := by decide
  rw [fieldText, infix_append_cons hsign]
  exact fun hmark => hmark.elim h.key_mark h.not_infix_value

/-- A field is read back from its text. -/
theorem Writable.field?_fieldText (h : Writable f) : field? (fieldText f) = some f := by
  have hvalue : '=' ∉ replaceAll ['\n'] lineFeedMark f.2.toList := by
    intro hmem
    rcases mem_replaceAll hmem with hmark | hmem
    · exact absurd hmark (by decide)
    · exact h.value_sign hmem
  have hback : replaceAll lineFeedMark ['\n'] (replaceAll ['\n'] lineFeedMark f.2.toList) =
      f.2.toList := by
    rw [lineFeedMark_eq]
    exact replaceAll_replaceAll hyphen_not_mem_lineFeedCore h.value_lineFeed _
  rw [field?, fieldText, cut?_singleton h.key_sign]
  simp [hvalue, hback]

theorem append_flatMap_encodeField (s : List Char) (fields : List (String × String)) :
    s ++ fields.flatMap encodeField = List.intercalate fieldMark (s :: fields.map fieldText) := by
  induction fields generalizing s with
  | nil => simp [List.intercalate]
  | cons f fields ih =>
    have heq : List.intercalate fieldMark (s :: (f :: fields).map fieldText) =
        s ++ (fieldMark ++ List.intercalate fieldMark (fieldText f :: fields.map fieldText)) := by
      simp [List.intercalate]
    rw [heq, ← ih]
    simp [encodeField, fieldText]

/-- The line of a message: its mark, its thread, and the kind and the fields between marks. -/
theorem toList_encode (thread : Nat) (kind : Kind) (fields : List (String × String)) :
    (encode thread kind fields).toList = lineMark ++ (decimal thread ++ (fieldMark ++
      List.intercalate fieldMark (kind.name.toList :: fields.map fieldText))) := by
  rw [encode, String.toList_ofList, ← append_flatMap_encodeField]
  simp only [List.append_assoc]

theorem isSpyLine_encode (thread : Nat) (kind : Kind) (fields : List (String × String)) :
    isSpyLine (encode thread kind fields) = true := by
  rw [isSpyLine, toList_encode, after?_append]
  rfl

theorem hyphen_not_mem_decimal (n : Nat) : '-' ∉ decimal n := fun h =>
  absurd (Nat.isDigit_of_mem_toDigits (by decide) (by decide) h) (by decide)

theorem takeWhile_hyphen {s : List Char} (h : '-' ∉ s) (rest : List Char) :
    (s ++ '-' :: rest).takeWhile (· != '-') = s := by
  rw [List.takeWhile_append_of_pos fun c hc => by simpa using ne_of_mem_of_not_mem hc h]
  simp

theorem dropWhile_hyphen {s : List Char} (h : '-' ∉ s) (rest : List Char) :
    (s ++ '-' :: rest).dropWhile (· != '-') = '-' :: rest := by
  rw [List.dropWhile_append_of_pos fun c hc => by simpa using ne_of_mem_of_not_mem hc h]
  simp

theorem readThread_decimal (h : thread < threadBound) (rest : List Char) :
    readThread (decimal thread ++ '-' :: rest) = .ok thread := by
  simp [readThread, takeWhile_hyphen (hyphen_not_mem_decimal thread), below?_decimal h]

theorem chomp_lineMark (rest : List Char) : chomp (lineMark ++ rest) = lineMark ++ chomp rest := by
  have hmark : lineMark.reverse.dropWhile isLineEnd = lineMark.reverse := by decide
  rw [chomp, dropEndWhile, List.reverse_append, List.dropWhile_append, hmark]
  split
  · next h => simp [chomp, dropEndWhile, List.isEmpty_iff.1 h]
  · simp [chomp, dropEndWhile]

theorem getLast?_name (kind : Kind) (c : Char) (hc : kind.name.toList.getLast? = some c) :
    isLineEnd c = false := by
  cases kind <;> cases hc <;> rfl

/-- A field ends as its value does, except that a line feed at the end was rewritten. -/
theorem isLineEnd_getLast?_encodeField (hf : f.2.toList.getLast? ≠ some '\r') {c : Char}
    (hc : (encodeField f).getLast? = some c) : isLineEnd c = false := by
  rw [encodeField, List.getLast?_append, List.getLast?_cons] at hc
  cases hvalue : (replaceAll ['\n'] lineFeedMark f.2.toList).getLast? with
  | none =>
    obtain rfl : '=' = c := by simpa [hvalue] using hc
    decide
  | some x =>
    obtain rfl : x = c := by simpa [hvalue] using hc
    have hmark : lineFeedMark.getLast? = some '-' := by decide
    rcases getLast?_replaceAll hmark hvalue with rfl | ⟨hne, hlast⟩
    · decide
    · have hreturn : x ≠ '\r' := by
        rintro rfl
        exact hf hlast
      simp [isLineEnd, hne, hreturn]

/-- Nothing is dropped from the end of a line. -/
theorem chomp_encode (hlast : ∀ f, fields.getLast? = some f → f.2.toList.getLast? ≠ some '\r') :
    chomp (encode thread kind fields).toList = (encode thread kind fields).toList := by
  refine chomp_eq_self fun c hc => ?_
  rw [encode, String.toList_ofList] at hc
  rcases List.eq_nil_or_concat fields with rfl | ⟨init, f, rfl⟩
  · obtain ⟨x, name, hname⟩ := List.exists_cons_of_ne_nil (l := kind.name.toList)
      (by cases kind <;> decide)
    refine getLast?_name kind c ?_
    simpa [List.getLast?_append, hname] using hc
  · have hf := hlast f (by simp)
    refine isLineEnd_getLast?_encodeField hf ?_
    rw [List.concat_eq_append, List.flatMap_append, List.flatMap_singleton, ← List.append_assoc,
      List.getLast?_append] at hc
    rw [← hc, encodeField, List.getLast?_append, List.getLast?_cons]
    rfl

end

/-! ## Top theorem -/

/-- A message is read back as it was written. -/
theorem decode_encode {thread : Nat} (kind : Kind) {fields : List (String × String)}
    (hthread : thread < threadBound) (hfields : ∀ f ∈ fields, Writable f)
    (hlast : ∀ f, fields.getLast? = some f → f.2.toList.getLast? ≠ some '\r') :
    decode (encode thread kind fields) = .ok ⟨thread, kind, fields⟩ := by
  have hpieces : ∀ p ∈ kind.name.toList :: fields.map fieldText, ¬ markCore <:+: p := by
    refine List.forall_mem_cons.2 ⟨not_infix_name kind, fun p hp => ?_⟩
    obtain ⟨f, hf, rfl⟩ := List.mem_map.1 hp
    exact (hfields f hf).not_infix_fieldText
  have hsplit : splitAll fieldMark
      (List.intercalate fieldMark (kind.name.toList :: fields.map fieldText)) =
        kind.name.toList :: fields.map fieldText := by
    rw [fieldMark_eq]
    exact splitAll_intercalate hyphen_not_mem_markCore (List.cons_ne_nil _ _) hpieces
  have hread : (fields.map fieldText).filterMap field? = fields := by
    rw [List.filterMap_map]
    refine (List.filterMap_congr fun f hf => ?_).trans List.filterMap_some
    exact (hfields f hf).field?_fieldText
  have hdrop : ∀ rest, (decimal thread ++ (fieldMark ++ rest)).dropWhile (· != '-') =
      fieldMark ++ rest := fun _ => dropWhile_hyphen (hyphen_not_mem_decimal thread) _
  have hthread' : ∀ rest, readThread (decimal thread ++ (fieldMark ++ rest)) = .ok thread :=
    fun _ => readThread_decimal hthread _
  rw [decode, chomp_encode hlast, toList_encode, after?_append]
  simp only [hthread', hdrop, after?_append, hsplit]
  simp only [List.headD_cons, List.tail_cons, hread, String.ofList_toList, readKind,
    Kind.ofName?_name]
  rfl

/-- Every key of a message has its last value when its line is read, and no other key has one. -/
theorem decode_encode_lastField {thread : Nat} (kind : Kind) {fields : List (String × String)}
    (hthread : thread < threadBound) (hfields : ∀ f ∈ fields, Writable f)
    (hlast : ∀ f, fields.getLast? = some f → f.2.toList.getLast? ≠ some '\r') :
    ∃ m, decode (encode thread kind fields) = .ok m ∧ m.thread = thread ∧ m.kind = kind ∧
      (∀ key value, m.value? key = some value ↔ LastField fields key value) ∧
      ∀ key, key ∈ m.keys ↔ key ∈ fields.map (·.1) :=
  ⟨⟨thread, kind, fields⟩, decode_encode kind hthread hfields hlast, rfl, rfl,
    fun _ _ => Message.value?_eq_some_iff, fun _ => Message.mem_keys⟩

/-- Hyphens and brackets at the ends of values, beside the marks, and a line feed at the very end. -/
theorem decode_encode_lastField_hyphens :
    let fields := [("id", "a-"), ("error", "-\n\n-[N"), ("id", "J]-\r\n")]
    18446744073709551615 < threadBound ∧ (∀ f ∈ fields, Writable f) ∧
    (∀ f, fields.getLast? = some f → f.2.toList.getLast? ≠ some '\r') ∧
    ∃ m, decode (encode 18446744073709551615 .projectFailed fields) = .ok m ∧
      m.thread = 18446744073709551615 ∧ m.kind = .projectFailed ∧
      (∀ key value, m.value? key = some value ↔ LastField fields key value) ∧
      ∀ key, key ∈ m.keys ↔ key ∈ fields.map (·.1) := by
  intro fields
  have hfields : ∀ f ∈ fields, Writable f := by
    simp only [fields, List.forall_mem_cons]
    refine ⟨?_, ?_, ?_, fun f hf => absurd hf List.not_mem_nil⟩ <;> constructor <;> decide
  have hlast : ∀ f, fields.getLast? = some f → f.2.toList.getLast? ≠ some '\r' := by
    rintro f ⟨rfl⟩
    decide
  have hthread : 18446744073709551615 < threadBound := by decide
  exact ⟨hthread, hfields, hlast, decode_encode_lastField .projectFailed hthread hfields hlast⟩

end BuildTree.Spy
