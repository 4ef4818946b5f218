import BuildTree.Line.Bytes
import BuildTree.Proofs.Replacement

/-!
# Lines before and after decoding

A byte stream is cut at line feeds first and decoded line by line.  Nothing of a character reaches
over a line feed, however the bytes around it are damaged, so that is the decoding of the whole
stream cut at its newlines: the lines, joined again, are what the stream decodes to.

    decodeLossy bytes = lines joined by newlines, and one more where the bytes end in a line feed
    number of lines   = line feeds, and one more where the bytes end in something else
-/

namespace BuildTree.Line

open Text (decodeLossy Replaced replaced_iff replaced_decodeLossy)

/-! ## Algorithm -/

/-- The newline after the last line, where the bytes have one. -/
def ending (bytes : List UInt8) : String :=
  if bytes.getLast? = some lineFeed then "\n" else ""

/-- The last line, where no line feed ends it. -/
def unended (bytes : List UInt8) : Nat :=
  if bytes ≠ [] ∧ bytes.getLast? ≠ some lineFeed then 1 else 0

/-! ## Lemmas -/

variable {line bytes : List UInt8}

/-! ### Line by line -/

theorem chunks_of_not_mem (h : lineFeed ∉ bytes) :
    chunks bytes = if bytes = [] then [] else [bytes] := by
  rw [chunks, List.splitOn_eq_singleton h]
  split_ifs <;> simp_all

theorem chunks_line (h : lineFeed ∉ line) :
    chunks (line ++ lineFeed :: bytes) = line :: chunks bytes := by
  have hne := List.splitOn_ne_nil lineFeed bytes
  simp only [chunks]
  rw [List.splitOn_append_cons_self_of_not_mem h, List.getLast?_cons_of_ne_nil hne,
    List.dropLast_cons_of_ne_nil hne]
  split <;> rfl

/-- Bytes are a list of lines that end in a line feed, and one that does not. -/
@[elab_as_elim]
theorem line_induction {motive : List UInt8 → Prop}
    (last : ∀ bytes, lineFeed ∉ bytes → motive bytes)
    (line : ∀ line bytes, lineFeed ∉ line → motive bytes → motive (line ++ lineFeed :: bytes))
    (bytes : List UInt8) : motive bytes := by
  induction hn : bytes.length using Nat.strongRecOn generalizing bytes with
  | ind n ih =>
    by_cases hmem : lineFeed ∈ bytes
    · obtain ⟨xs, rest, rfl, hxs⟩ := List.eq_append_cons_of_mem hmem
      refine line xs rest hxs (ih rest.length ?_ rest rfl)
      rw [← hn, List.length_append, List.length_cons]
      omega
    · exact last bytes hmem

theorem ofBytes_of_not_mem (h : lineFeed ∉ bytes) :
    ofBytes bytes = if bytes = [] then [] else [String.ofList (decodeLossy bytes)] := by
  rw [ofBytes, chunks_of_not_mem h]
  split <;> rfl

theorem ofBytes_line (h : lineFeed ∉ line) :
    ofBytes (line ++ lineFeed :: bytes) = String.ofList (decodeLossy line) :: ofBytes bytes := by
  rw [ofBytes, chunks_line h]
  rfl

theorem ofBytes_eq_nil_iff : ofBytes bytes = [] ↔ bytes = [] := by
  induction bytes using line_induction with
  | last bytes h => rw [ofBytes_of_not_mem h]; split <;> simp_all
  | line line bytes h _ => simp [ofBytes_line h]

/-! ### The end of the bytes -/

theorem getLast?_ne_of_not_mem (h : lineFeed ∉ bytes) : bytes.getLast? ≠ some lineFeed :=
  fun hlast => h (List.mem_of_getLast? hlast)

theorem getLast?_line (hne : bytes ≠ []) :
    (line ++ lineFeed :: bytes).getLast? = bytes.getLast? := by
  rw [List.getLast?_append_cons, List.getLast?_cons_of_ne_nil hne]

theorem ending_line_feed : ending (line ++ [lineFeed]) = "\n" := by
  rw [ending, List.getLast?_concat, if_pos rfl]

theorem ending_line (hne : bytes ≠ []) : ending (line ++ lineFeed :: bytes) = ending bytes := by
  rw [ending, getLast?_line hne, ending]

theorem unended_line : unended (line ++ lineFeed :: bytes) = unended bytes := by
  by_cases hnil : bytes = []
  · subst hnil
    simp [unended]
  · simp [unended, getLast?_line hnil, hnil]

/-! ### Decoded -/

theorem ofList_line :
    String.ofList (decodeLossy (line ++ lineFeed :: bytes)) =
      String.ofList (decodeLossy line) ++ "\n" ++ String.ofList (decodeLossy bytes) := by
  have hline : decodeLossy (line ++ lineFeed :: bytes) =
      decodeLossy line ++ ['\n'] ++ decodeLossy bytes := by
    rw [Text.decodeLossy_append (by simp [lineFeed]), Text.decodeLossy_cons (by decide),
      List.append_assoc]
    rfl
  rw [hline, String.ofList_append, String.ofList_append]

theorem newline_not_mem (h : lineFeed ∉ line) : '\n' ∉ decodeLossy line :=
  fun hmem => h ((replaced_decodeLossy line).mem_of_mem (by decide) hmem)

theorem intercalate_ofBytes (bytes : List UInt8) :
    "\n".intercalate (ofBytes bytes) ++ ending bytes = String.ofList (decodeLossy bytes) := by
  induction bytes using line_induction with
  | last bytes h =>
    rw [ending, if_neg (getLast?_ne_of_not_mem h), ofBytes_of_not_mem h]
    split
    · next hnil => simp [hnil, decodeLossy]
    · simp
  | line line bytes h ih =>
    rw [ofBytes_line h, ofList_line]
    by_cases hnil : bytes = []
    · subst hnil
      rw [ofBytes_eq_nil_iff.2 rfl, String.intercalate_singleton, ending_line_feed]
      simp [decodeLossy]
    · have hne : ofBytes bytes ≠ [] := fun heq => hnil (ofBytes_eq_nil_iff.1 heq)
      rw [String.intercalate_cons_of_ne_nil hne, ending_line hnil, String.append_assoc, ih]

theorem newline_not_mem_of_mem {text : String} (h : text ∈ ofBytes bytes) :
    '\n' ∉ text.toList := by
  induction bytes using line_induction with
  | last bytes hfree =>
    rw [ofBytes_of_not_mem hfree] at h
    split at h
    · cases h
    · rw [List.mem_singleton.1 h, String.toList_ofList]
      exact newline_not_mem hfree
  | line line bytes hfree ih =>
    rw [ofBytes_line hfree] at h
    rcases List.mem_cons.1 h with rfl | h
    · rw [String.toList_ofList]
      exact newline_not_mem hfree
    · exact ih h

theorem length_ofBytes : (ofBytes bytes).length = bytes.count lineFeed + unended bytes := by
  induction bytes using line_induction with
  | last bytes h =>
    rw [ofBytes_of_not_mem h, List.count_eq_zero_of_not_mem h]
    by_cases hnil : bytes = []
    · simp [unended, hnil]
    · simp [unended, hnil, getLast?_ne_of_not_mem h]
  | line line bytes h ih =>
    rw [ofBytes_line h, List.length_cons, ih, unended_line, List.count_append, List.count_cons_self,
      List.count_eq_zero_of_not_mem h]
    omega

/-! ## Top theorem -/

/-- Cutting at line feeds commutes with decoding: the lines are those of the bytes in which every
maximal invalid part is replaced by one character. -/
theorem ofBytes_decode_comm (bytes : List UInt8) :
    (∀ cs, Replaced bytes cs ↔ cs = decodeLossy bytes) ∧
    "\n".intercalate (ofBytes bytes) ++ ending bytes = String.ofList (decodeLossy bytes) ∧
    (∀ text ∈ ofBytes bytes, '\n' ∉ text.toList) ∧
    (ofBytes bytes).length = bytes.count lineFeed + unended bytes :=
  ⟨fun _ => replaced_iff, intercalate_ofBytes bytes, fun _ => newline_not_mem_of_mem,
    length_ofBytes⟩

/-- A character that a line feed cuts is none: one replacement before it, one for each byte of the
rest that begins nothing. -/
example : ofBytes [0xE2, 0x82, 0x0A, 0xAC, 0x41] = ["\uFFFD", "\uFFFDA"] := by
  decide +kernel

end BuildTree.Line
