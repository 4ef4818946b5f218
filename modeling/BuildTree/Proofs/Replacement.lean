import BuildTree.Text.Utf8
import Mathlib.Data.List.Basic

/-!
# What a replacement character stands for

Lossy decoding, told without the decoder: the bytes are cut into the encodings of characters and
into parts that are none.  Such a part is as long as the beginning of an encoding can be, and one
byte where no encoding begins.

    Replaced bytes cs   iff   cs = decodeLossy bytes
    decodeLossy (a ++ b) = decodeLossy a ++ decodeLossy b     where b starts below 0x80
-/

namespace BuildTree.Text

/-! ## Algorithm -/

/-- The bytes begin the encoding of a character, or are one. -/
def Begins (bytes : List UInt8) : Prop := ∃ c, bytes <+: String.utf8EncodeChar c

/-- A part that one replacement stands for, before a rest: no character can be read there, and the
part is the longest beginning of one, or a byte that begins none. -/
structure Invalid (part rest : List UInt8) : Prop where
  unreadable : ∀ c, ¬ String.utf8EncodeChar c <+: part ++ rest
  begins : Begins part ∨ part.length = 1
  ne_nil : part ≠ []
  longest : ∀ q, q <+: part ++ rest → Begins q → q.length ≤ part.length

/-- Characters that bytes are replaced by: those that they encode, and one for each invalid part. -/
inductive Replaced : List UInt8 → List Char → Prop
  | nil : Replaced [] []
  | char (c : Char) {bytes cs} (hrest : Replaced bytes cs) :
      Replaced (String.utf8EncodeChar c ++ bytes) (c :: cs)
  | invalid {part rest cs} (hpart : Invalid part rest) (hrest : Replaced rest cs) :
      Replaced (part ++ rest) (replacement :: cs)

/-- Bytes that can follow a lead byte, all of them or only the first ones. -/
def Follows : (n low high : Nat) → List UInt8 → Prop
  | _, _, _, [] => True
  | 0, _, _, _ :: _ => False
  | n + 1, low, high, b :: bytes => (low ≤ b.toNat ∧ b.toNat ≤ high) ∧ Follows n 0x80 0xBF bytes

/-- The code point that a lead byte and the bytes after it hold. -/
def codePoint (bits : Nat) (bytes : List UInt8) : Nat :=
  bytes.foldl (fun v b => v * 64 + b.toNat % 64) bits

/-! ## Lemmas -/

variable {b : UInt8} {bytes t q : List UInt8} {c : Char} {n low high bits : Nat} {l : Lead}

/-! ### The bytes after a lead byte -/

theorem follows_nil : Follows n low high [] := by
  cases n <;> trivial

theorem Follows.length_le (h : Follows n low high t) : t.length ≤ n := by
  induction t generalizing n low high with
  | nil => exact Nat.zero_le n
  | cons b t ih =>
    cases n with
    | zero => exact h.elim
    | succ n =>
      have := ih h.2
      simp only [List.length_cons]
      omega

/-- The reader takes the longest run that can follow, and has a character if that is complete. -/
theorem exists_following (n low high bits : Nat) (bytes : List UInt8) :
    ∃ t, bytes = t ++ (following n low high bits bytes).2 ∧ Follows n low high t ∧
      (∀ q, q <+: bytes → Follows n low high q → q.length ≤ t.length) ∧
      (following n low high bits bytes).1 =
        if t.length = n then some (Char.ofNat (codePoint bits t)) else none := by
  induction n generalizing low high bits bytes with
  | zero =>
    exact ⟨[], by simp [following], follows_nil, fun q _ hq => hq.length_le,
      by simp [following, codePoint]⟩
  | succ n ih =>
    cases bytes with
    | nil =>
      refine ⟨[], by simp [following], follows_nil, fun q hq _ => ?_, by simp [following]⟩
      simp [List.prefix_nil.1 hq]
    | cons b bytes =>
      rw [following]
      split
      · next hb =>
        obtain ⟨t, hbytes, ht, hlongest, hchar⟩ := ih 0x80 0xBF (bits * 64 + b.toNat % 64) bytes
        refine ⟨b :: t, by rw [List.cons_append, ← hbytes], ⟨hb, ht⟩, fun q hq hfollows => ?_, ?_⟩
        · cases q with
          | nil => simp
          | cons x q =>
            have := hlongest q (List.cons_prefix_cons.1 hq).2 hfollows.2
            simp only [List.length_cons]
            omega
        · rw [hchar]
          simp [codePoint]
      · next hb =>
        refine ⟨[], rfl, follows_nil, fun q hq hfollows => ?_, by simp⟩
        cases q with
        | nil => simp
        | cons x q =>
          obtain ⟨rfl, -⟩ := List.cons_prefix_cons.1 hq
          exact absurd hfollows.1 hb

/-! ### The encoding of a character -/

/-- What a lead byte announces, by the number of bytes that follow. -/
theorem lead?_eq_some {n : Nat} (h : lead? n = some l) :
    (0xC2 ≤ n ∧ n ≤ 0xDF ∧ l = ⟨1, 0x80, 0xBF, n % 32⟩) ∨
    (0xE0 ≤ n ∧ n ≤ 0xEF ∧ l.following = 2 ∧ l.bits = n % 16 ∧ 0x80 ≤ l.low ∧ l.low ≤ l.high ∧
      l.high ≤ 0xBF ∧ (n = 0xE0 → 0xA0 ≤ l.low) ∧ (n = 0xED → l.high ≤ 0x9F)) ∨
    (0xF0 ≤ n ∧ n ≤ 0xF4 ∧ l.following = 3 ∧ l.bits = n % 8 ∧ 0x80 ≤ l.low ∧ l.low ≤ l.high ∧
      l.high ≤ 0xBF ∧ (n = 0xF0 → 0x90 ≤ l.low) ∧ (n = 0xF4 → l.high ≤ 0x8F)) := by
  unfold lead? at h
  split_ifs at h <;> cases h <;> simp <;> omega

theorem lead?_range {n : Nat} (h : lead? n = some l) :
    0x80 ≤ l.low ∧ l.low ≤ l.high ∧ l.high ≤ 0xBF := by
  rcases lead?_eq_some h with ⟨-, -, rfl⟩ | h | h
  · simp
  · omega
  · omega

theorem lead?_of_two {n : Nat} (h : 0xC2 ≤ n ∧ n ≤ 0xDF) :
    lead? n = some ⟨1, 0x80, 0xBF, n % 32⟩ := by
  rw [lead?, if_pos h]

/-- A byte is a lead byte of three or four, with `x` in its range, unless the two begin an overlong
form, a surrogate or what is beyond the last code point. -/
theorem exists_lead {n x : Nat} (h : 0xE0 ≤ n ∧ n ≤ 0xF4) (hx : 0x80 ≤ x ∧ x ≤ 0xBF)
    (hlow : (n = 0xE0 → 0xA0 ≤ x) ∧ (n = 0xF0 → 0x90 ≤ x))
    (hhigh : (n = 0xED → x ≤ 0x9F) ∧ (n = 0xF4 → x ≤ 0x8F)) :
    ∃ l, lead? n = some l ∧ l.following = (if n < 0xF0 then 2 else 3) ∧
      l.low ≤ x ∧ x ≤ l.high := by
  unfold lead?
  split_ifs <;> first
    | omega
    | exact ⟨_, rfl, rfl, by dsimp only; omega, by dsimp only; omega⟩

theorem encode_ofNat {v : Nat} (h : v.isValidChar) :
    String.utf8EncodeChar (Char.ofNat v) =
      if v ≤ 127 then [UInt8.ofNat v]
      else if v ≤ 2047 then [UInt8.ofNat (v / 64 % 32 + 192), UInt8.ofNat (v % 64 + 128)]
      else if v ≤ 65535 then
        [UInt8.ofNat (v / 4096 % 16 + 224), UInt8.ofNat (v / 64 % 64 + 128),
          UInt8.ofNat (v % 64 + 128)]
      else
        [UInt8.ofNat (v / 262144 % 8 + 240), UInt8.ofNat (v / 4096 % 64 + 128),
          UInt8.ofNat (v / 64 % 64 + 128), UInt8.ofNat (v % 64 + 128)] := by
  have hv : (Char.ofNat v).val.toNat = v := by
    rw [Char.ofNat, dif_pos h]
    rfl
  rw [String.utf8EncodeChar, hv]

theorem encode_ofNat_ascii (h : b.toNat < 0x80) :
    String.utf8EncodeChar (Char.ofNat b.toNat) = [b] := by
  rw [encode_ofNat (Or.inl (by omega)), if_pos (by omega)]
  simp

/-- Bytes that follow a lead byte to the end are the encoding of what they hold. -/
theorem encode_codePoint (hl : lead? b.toNat = some l) (ht : Follows l.following l.low l.high t)
    (hlength : t.length = l.following) :
    String.utf8EncodeChar (Char.ofNat (codePoint l.bits t)) = b :: t := by
  rcases lead?_eq_some hl with ⟨hlow, hhigh, rfl⟩ | ⟨hlow, hhigh, hn, hbits, hl⟩ |
    ⟨hlow, hhigh, hn, hbits, hl⟩
  · obtain ⟨x, rfl⟩ := List.length_eq_one_iff.1 hlength
    obtain ⟨hx, -⟩ := ht
    dsimp only at hx
    simp only [codePoint, List.foldl_cons, List.foldl_nil]
    have hvalid : (b.toNat % 32 * 64 + x.toNat % 64).isValidChar := Or.inl (by omega)
    rw [encode_ofNat hvalid, if_neg (by omega), if_pos (by omega)]
    simp only [List.cons.injEq, ← UInt8.toNat_inj, UInt8.toNat_ofNat', and_true]
    omega
  · rw [hn] at hlength ht
    obtain ⟨x, y, rfl⟩ := List.length_eq_two.1 hlength
    obtain ⟨hx, hy, -⟩ := ht
    simp only [codePoint, List.foldl_cons, List.foldl_nil, hbits]
    have hvalid : ((b.toNat % 16 * 64 + x.toNat % 64) * 64 + y.toNat % 64).isValidChar := by
      unfold Nat.isValidChar
      omega
    rw [encode_ofNat hvalid, if_neg (by omega), if_neg (by omega), if_pos (by omega)]
    simp only [List.cons.injEq, ← UInt8.toNat_inj, UInt8.toNat_ofNat', and_true]
    omega
  · rw [hn] at hlength ht
    obtain ⟨x, y, z, rfl⟩ := List.length_eq_three.1 hlength
    obtain ⟨hx, hy, hz, -⟩ := ht
    simp only [codePoint, List.foldl_cons, List.foldl_nil, hbits]
    have hvalid : (((b.toNat % 8 * 64 + x.toNat % 64) * 64 + y.toNat % 64) * 64 +
        z.toNat % 64).isValidChar := by
      unfold Nat.isValidChar
      omega
    rw [encode_ofNat hvalid, if_neg (by omega), if_neg (by omega), if_neg (by omega)]
    simp only [List.cons.injEq, ← UInt8.toNat_inj, UInt8.toNat_ofNat', and_true]
    omega

/-- An encoding is one byte, or a lead byte with bytes that follow it to the end. -/
theorem lead?_of_encode (h : String.utf8EncodeChar c = b :: t) :
    (b.toNat < 0x80 ∧ t = []) ∨
      ∃ l, lead? b.toNat = some l ∧ Follows l.following l.low l.high t ∧
        t.length = l.following := by
  have hvalid : c.val.toNat < 0xD800 ∨ (0xDFFF < c.val.toNat ∧ c.val.toNat < 0x110000) := c.valid
  rw [String.utf8EncodeChar] at h
  generalize c.val.toNat = v at h hvalid
  have htoNat : ∀ k < 256, (UInt8.ofNat k).toNat = k := fun k hk => by
    rw [UInt8.toNat_ofNat', Nat.mod_eq_of_lt hk]
  split_ifs at h with h₁ h₂ h₃
  · obtain ⟨rfl, rfl⟩ := List.cons.inj h
    left
    rw [htoNat v (by omega)]
    exact ⟨by omega, rfl⟩
  · obtain ⟨rfl, rfl⟩ := List.cons.inj h
    right
    rw [htoNat _ (by omega)]
    refine ⟨_, lead?_of_two (by omega), ⟨?_, trivial⟩, rfl⟩
    rw [htoNat _ (by omega)]
    dsimp only
    omega
  · obtain ⟨rfl, rfl⟩ := List.cons.inj h
    right
    rw [htoNat _ (by omega)]
    obtain ⟨l, hl, hn, hx⟩ := exists_lead (n := v / 4096 % 16 + 224) (x := v / 64 % 64 + 128)
      (by omega) (by omega) (by omega) (by omega)
    rw [if_pos (by omega)] at hn
    refine ⟨l, hl, ?_, hn.symm⟩
    rw [hn]
    simp only [Follows, and_true]
    rw [htoNat _ (by omega), htoNat _ (by omega)]
    exact ⟨hx, by omega⟩
  · obtain ⟨rfl, rfl⟩ := List.cons.inj h
    right
    rw [htoNat _ (by omega)]
    obtain ⟨l, hl, hn, hx⟩ := exists_lead (n := v / 262144 % 8 + 240) (x := v / 4096 % 64 + 128)
      (by omega) (by omega) (by omega) (by omega)
    rw [if_neg (by omega)] at hn
    refine ⟨l, hl, ?_, hn.symm⟩
    rw [hn]
    simp only [Follows, and_true]
    rw [htoNat _ (by omega), htoNat _ (by omega), htoNat _ (by omega)]
    exact ⟨hx, by omega, by omega⟩

/-! ### Beginnings of encodings -/

theorem Follows.of_prefix (ht : Follows n low high t) (h : q <+: t) : Follows n low high q := by
  induction q generalizing n low high t with
  | nil => exact follows_nil
  | cons b q ih =>
    obtain ⟨u, rfl⟩ := h
    cases n with
    | zero => exact ht.elim
    | succ n => exact ⟨ht.1, ih ht.2 (List.prefix_append q u)⟩

/-- What can follow a lead byte can be completed. -/
theorem Follows.exists_complete (h : Follows n low high q) (hlow : low ≤ high)
    (hhigh : high ≤ 0xBF) :
    ∃ t, q <+: t ∧ Follows n low high t ∧ t.length = n := by
  induction n generalizing low high q with
  | zero =>
    cases q with
    | nil => exact ⟨[], List.prefix_rfl, h, rfl⟩
    | cons => exact h.elim
  | succ n ih =>
    cases q with
    | nil =>
      obtain ⟨t, -, ht, hlength⟩ := ih follows_nil (show 0x80 ≤ 0xBF by decide) (by decide)
      refine ⟨UInt8.ofNat low :: t, List.nil_prefix, ⟨?_, ht⟩, by rw [List.length_cons, hlength]⟩
      rw [UInt8.toNat_ofNat']
      omega
    | cons b q =>
      obtain ⟨t, hq, ht, hlength⟩ := ih h.2 (by decide) (by decide)
      refine ⟨b :: t, List.cons_prefix_cons.2 ⟨rfl, hq⟩, ⟨h.1, ht⟩, ?_⟩
      rw [List.length_cons, hlength]

theorem begins_cons_iff :
    Begins (b :: q) ↔ (b.toNat < 0x80 ∧ q = []) ∨
      ∃ l, lead? b.toNat = some l ∧ Follows l.following l.low l.high q := by
  constructor
  · rintro ⟨c, t, hc⟩
    rcases lead?_of_encode hc.symm with ⟨hb, ht⟩ | ⟨l, hl, ht, -⟩
    · exact Or.inl ⟨hb, (List.append_eq_nil_iff.1 ht).1⟩
    · exact Or.inr ⟨l, hl, ht.of_prefix (List.prefix_append q t)⟩
  · rintro (⟨hb, rfl⟩ | ⟨l, hl, hq⟩)
    · exact ⟨Char.ofNat b.toNat, by simp [encode_ofNat_ascii hb]⟩
    · obtain ⟨t, hqt, ht, hlength⟩ := hq.exists_complete (lead?_range hl).2.1 (lead?_range hl).2.2
      refine ⟨Char.ofNat (codePoint l.bits t), ?_⟩
      rw [encode_codePoint hl ht hlength]
      exact List.cons_prefix_cons.2 ⟨rfl, hqt⟩

theorem Follows.le_of_mem (h : Follows n low high t) (hlow : 0x80 ≤ low) (hb : b ∈ t) :
    0x80 ≤ b.toNat := by
  induction t generalizing n low high with
  | nil => cases hb
  | cons x t ih =>
    cases n with
    | zero => exact h.elim
    | succ n =>
      rcases List.mem_cons.1 hb with rfl | hb
      · exact Nat.le_trans hlow h.1.1
      · exact ih h.2 (Nat.le_refl _) hb

/-- A byte below 0x80 is a whole character: no encoding that begins before it reaches over it. -/
theorem not_begins_append {p : List UInt8} (hp : p ≠ []) (hb : b.toNat < 0x80) :
    ¬ Begins (p ++ b :: q) := by
  obtain ⟨x, p, rfl⟩ := List.exists_cons_of_ne_nil hp
  rw [List.cons_append, begins_cons_iff]
  rintro (⟨-, h⟩ | ⟨l, hl, h⟩)
  · simp at h
  · have := h.le_of_mem (lead?_range hl).1 (List.mem_append_right p List.mem_cons_self)
    omega

/-! ### The decoder -/

theorem exists_encode_of_prefix (h : String.utf8EncodeChar c <+: b :: bytes) :
    ∃ t, String.utf8EncodeChar c = b :: t ∧ t <+: bytes := by
  obtain ⟨x, t, hc⟩ := List.exists_cons_of_ne_nil (String.utf8EncodeChar_ne_nil (c := c))
  rw [hc] at h
  obtain ⟨rfl, ht⟩ := List.cons_prefix_cons.1 h
  exact ⟨t, hc, ht⟩

/-- A byte that begins no encoding is an invalid part. -/
theorem invalid_singleton (hb : ¬ b.toNat < 0x80) (hlead : lead? b.toNat = none) :
    Invalid [b] bytes where
  unreadable c hc := by
    obtain ⟨t, ht, -⟩ := exists_encode_of_prefix hc
    rcases lead?_of_encode ht with ⟨h, -⟩ | ⟨l, hl, -⟩
    · exact hb h
    · rw [hlead] at hl
      cases hl
  begins := Or.inr rfl
  ne_nil := by simp
  longest q hq hbegins := by
    cases q with
    | nil => simp
    | cons x q =>
      obtain ⟨rfl, -⟩ := List.cons_prefix_cons.1 hq
      rcases begins_cons_iff.1 hbegins with ⟨h, -⟩ | ⟨l, hl, -⟩
      · exact absurd h hb
      · rw [hlead] at hl
        cases hl

/-- A lead byte with the longest run that can follow it, if that is not complete, is an invalid
part. -/
theorem invalid_lead {rest : List UInt8} (hl : lead? b.toNat = some l)
    (ht : Follows l.following l.low l.high t) (hlength : t.length ≠ l.following)
    (hlongest : ∀ q, q <+: t ++ rest → Follows l.following l.low l.high q → q.length ≤ t.length) :
    Invalid (b :: t) rest where
  unreadable c hc := by
    obtain ⟨t', ht', hprefix⟩ := exists_encode_of_prefix hc
    rcases lead?_of_encode ht' with ⟨h, -⟩ | ⟨l', hl', hfollows, hcomplete⟩
    · rcases lead?_eq_some hl with h' | h' | h' <;> omega
    · rw [hl] at hl'
      cases hl'
      have := hlongest t' hprefix hfollows
      have := ht.length_le
      omega
  begins := Or.inl (begins_cons_iff.2 (Or.inr ⟨l, hl, ht⟩))
  ne_nil := by simp
  longest q hq hbegins := by
    cases q with
    | nil => simp
    | cons x q =>
      obtain ⟨rfl, hprefix⟩ := List.cons_prefix_cons.1 hq
      rcases begins_cons_iff.1 hbegins with ⟨-, rfl⟩ | ⟨l', hl', hfollows⟩
      · simp
      · rw [hl] at hl'
        cases hl'
        simpa using hlongest q hprefix hfollows

/-- The decoder takes a character, or an invalid part. -/
theorem firstChar_spec (b : UInt8) (bytes : List UInt8) :
    String.utf8EncodeChar (firstChar b bytes).1 ++ (firstChar b bytes).2 = b :: bytes ∨
      (firstChar b bytes).1 = replacement ∧
        ∃ part, part ++ (firstChar b bytes).2 = b :: bytes ∧
          Invalid part (firstChar b bytes).2 := by
  rw [firstChar]
  split
  · next hb => exact Or.inl (by rw [encode_ofNat_ascii hb]; rfl)
  · next hb =>
    split
    · next hlead => exact Or.inr ⟨rfl, [b], rfl, invalid_singleton hb hlead⟩
    · next l hl =>
      obtain ⟨t, hbytes, ht, hlongest, hchar⟩ :=
        exists_following l.following l.low l.high l.bits bytes
      dsimp only
      by_cases hlength : t.length = l.following
      · left
        rw [hchar, if_pos hlength, Option.getD_some, encode_codePoint hl ht hlength,
          List.cons_append, ← hbytes]
      · right
        rw [hchar, if_neg hlength, Option.getD_none]
        rw [hbytes] at hlongest
        exact ⟨rfl, b :: t, by rw [List.cons_append, ← hbytes], invalid_lead hl ht hlength hlongest⟩

theorem replaced_decodeLossy (bytes : List UInt8) : Replaced bytes (decodeLossy bytes) := by
  fun_induction decodeLossy bytes with
  | case1 => exact .nil
  | case2 b bytes ih =>
    rcases firstChar_spec b bytes with h | ⟨hchar, part, h, hpart⟩
    · rw [← h]
      exact .char _ ih
    · rw [← h, hchar]
      exact .invalid hpart ih

/-! ### One decoding for some bytes -/

/-- No encoding is a proper beginning of another one. -/
theorem encode_prefix_inj {c' : Char} (h : String.utf8EncodeChar c <+: bytes)
    (h' : String.utf8EncodeChar c' <+: bytes) : c = c' := by
  obtain ⟨t, rfl⟩ := h
  obtain ⟨t', h'⟩ := h'
  have hread := ByteArray.utf8DecodeChar?_utf8EncodeChar_append (b := t.toByteArray) (c := c)
  rw [← List.toByteArray_append, ← h', List.toByteArray_append,
    ByteArray.utf8DecodeChar?_utf8EncodeChar_append] at hread
  exact (Option.some.inj hread).symm

theorem Invalid.length_le {part rest part' rest' : List UInt8} (h : Invalid part rest)
    (h' : Invalid part' rest') (heq : part ++ rest = part' ++ rest') :
    part.length ≤ part'.length := by
  rcases h.begins with hbegins | hlength
  · exact h'.longest part (heq ▸ List.prefix_append part rest) hbegins
  · rw [hlength]
    exact List.length_pos_iff.2 h'.ne_nil

theorem Replaced.unique {cs cs' : List Char} (h : Replaced bytes cs) (h' : Replaced bytes cs') :
    cs = cs' := by
  induction h generalizing cs' with
  | nil =>
    generalize hall : ([] : List UInt8) = all at h'
    cases h' with
    | nil => rfl
    | char => exact absurd (List.append_eq_nil_iff.1 hall.symm).1 String.utf8EncodeChar_ne_nil
    | invalid hpart => exact absurd (List.append_eq_nil_iff.1 hall.symm).1 hpart.ne_nil
  | @char c bytes cs hrest ih =>
    generalize hall : String.utf8EncodeChar c ++ bytes = all at h'
    cases h' with
    | nil => exact absurd (List.append_eq_nil_iff.1 hall).1 String.utf8EncodeChar_ne_nil
    | char c' hrest' =>
      obtain rfl := encode_prefix_inj ⟨_, hall⟩ (List.prefix_append (String.utf8EncodeChar c') _)
      obtain rfl := List.append_cancel_left hall
      rw [ih hrest']
    | invalid hpart => exact absurd ⟨_, hall⟩ (hpart.unreadable c)
  | @invalid part rest cs hpart hrest ih =>
    generalize hall : part ++ rest = all at h'
    cases h' with
    | nil => exact absurd (List.append_eq_nil_iff.1 hall).1 hpart.ne_nil
    | char c' => exact absurd ⟨_, hall.symm⟩ (hpart.unreadable c')
    | invalid hpart' hrest' =>
      have hlength : part.length = _ :=
        Nat.le_antisymm (hpart.length_le hpart' hall) (hpart'.length_le hpart hall.symm)
      obtain ⟨rfl, rfl⟩ := List.append_inj hall hlength
      rw [ih hrest']

/-- The decoder gives the one list of characters that the bytes are replaced by. -/
theorem replaced_iff {cs : List Char} : Replaced bytes cs ↔ cs = decodeLossy bytes := by
  constructor
  · exact fun h => h.unique (replaced_decodeLossy bytes)
  · rintro rfl
    exact replaced_decodeLossy bytes

/-! ### Bytes in two parts -/

theorem Begins.prefix_of_prefix_append {p : List UInt8} (hq : Begins q) (h : q <+: p ++ t)
    (hp : p ≠ []) (ht : ∀ x ∈ t.head?, x.toNat < 0x80) : q <+: p := by
  rcases List.prefix_or_prefix_of_prefix h (List.prefix_append p t) with hprefix | ⟨u, rfl⟩
  · exact hprefix
  · cases u with
    | nil => simp
    | cons x u =>
      obtain ⟨v, rfl⟩ := (List.prefix_append_right_inj p).1 h
      exact absurd hq (not_begins_append hp (ht x rfl))

theorem Invalid.append {part rest : List UInt8} (h : Invalid part rest)
    (ht : ∀ x ∈ t.head?, x.toNat < 0x80) : Invalid part (rest ++ t) := by
  have hne : part ++ rest ≠ [] := fun hnil => h.ne_nil (List.append_eq_nil_iff.1 hnil).1
  refine ⟨fun c hc => ?_, h.begins, h.ne_nil, fun q hq hbegins => ?_⟩
  · rw [← List.append_assoc] at hc
    have hbegins : Begins (String.utf8EncodeChar c) := ⟨c, List.prefix_rfl⟩
    exact h.unreadable c (hbegins.prefix_of_prefix_append hc hne ht)
  · rw [← List.append_assoc] at hq
    exact h.longest q (hbegins.prefix_of_prefix_append hq hne ht) hbegins

theorem Replaced.append {cs ds : List Char} (h : Replaced bytes cs) (h' : Replaced t ds)
    (ht : ∀ x ∈ t.head?, x.toNat < 0x80) : Replaced (bytes ++ t) (cs ++ ds) := by
  induction h with
  | nil => exact h'
  | char c hrest ih =>
    rw [List.append_assoc]
    exact .char c ih
  | invalid hpart hrest ih =>
    rw [List.append_assoc]
    exact .invalid (hpart.append ht) ih

/-- Nothing of a character reaches over a byte below 0x80, so the parts are decoded each alone. -/
theorem decodeLossy_append (ht : ∀ x ∈ t.head?, x.toNat < 0x80) :
    decodeLossy (bytes ++ t) = decodeLossy bytes ++ decodeLossy t :=
  (replaced_iff.1 ((replaced_decodeLossy bytes).append (replaced_decodeLossy t) ht)).symm

theorem decodeLossy_cons (hb : b.toNat < 0x80) :
    decodeLossy (b :: bytes) = Char.ofNat b.toNat :: decodeLossy bytes := by
  rw [decodeLossy, firstChar, if_pos hb]

theorem Replaced.mem_of_mem {cs : List Char} (h : Replaced bytes cs) (hb : b.toNat < 0x80)
    (hmem : Char.ofNat b.toNat ∈ cs) : b ∈ bytes := by
  induction h with
  | nil => cases hmem
  | char c hrest ih =>
    rcases List.mem_cons.1 hmem with rfl | hmem
    · rw [encode_ofNat_ascii hb]
      exact List.mem_cons_self
    · exact List.mem_append_right _ (ih hmem)
  | invalid hpart hrest ih =>
    rcases List.mem_cons.1 hmem with heq | hmem
    · have hval := congrArg (fun c : Char => c.val.toNat) heq
      rw [Char.ofNat, dif_pos (Or.inl (by omega))] at hval
      change b.toNat = 0xFFFD at hval
      omega
    · exact List.mem_append_right _ (ih hmem)

end BuildTree.Text
