/-!
# UTF-8, decoded lossily

Bytes become characters; where they are no UTF-8, each maximal invalid part (a lead byte
with as many following bytes as could still belong to a character, or one byte that can
start none) becomes one replacement character U+FFFD.

    decodeLossy (a ++ b) = decodeLossy a ++ decodeLossy b
                           when b starts with a byte below 0x80, or a ends with one
-/

namespace BuildTree.Text

def replacement : Char := '\uFFFD'

/-- What a lead byte announces: how many bytes follow, the range of the first of them, and the
bits that the lead byte holds itself. -/
structure Lead where
  following : Nat
  low : Nat
  high : Nat
  bits : Nat

/-- The lead byte of a character of more than one byte.  The ranges leave out overlong forms,
surrogates and code points beyond U+10FFFF. -/
def lead? (b : Nat) : Option Lead :=
  if 0xC2 ≤ b ∧ b ≤ 0xDF then some ⟨1, 0x80, 0xBF, b % 32⟩
  else if b = 0xE0 then some ⟨2, 0xA0, 0xBF, b % 16⟩
  else if b = 0xED then some ⟨2, 0x80, 0x9F, b % 16⟩
  else if 0xE1 ≤ b ∧ b ≤ 0xEF then some ⟨2, 0x80, 0xBF, b % 16⟩
  else if b = 0xF0 then some ⟨3, 0x90, 0xBF, b % 8⟩
  else if 0xF1 ≤ b ∧ b ≤ 0xF3 then some ⟨3, 0x80, 0xBF, b % 8⟩
  else if b = 0xF4 then some ⟨3, 0x80, 0x8F, b % 8⟩
  else none

/-- Reads the following bytes of a character, the first of them within a range; gives the
character, if they are all there, and the bytes after what was read. -/
def following (n low high bits : Nat) (bytes : List UInt8) : Option Char × List UInt8 :=
  match n, bytes with
  | 0, bytes => (some (Char.ofNat bits), bytes)
  | _ + 1, [] => (none, [])
  | n + 1, b :: bytes =>
    if low ≤ b.toNat ∧ b.toNat ≤ high then
      following n 0x80 0xBF (bits * 64 + b.toNat % 64) bytes
    else (none, b :: bytes)

theorem length_following : ∀ (n low high bits : Nat) (bytes : List UInt8),
    (following n low high bits bytes).2.length ≤ bytes.length
  | 0, _, _, _, _ => by simp [following]
  | _ + 1, _, _, _, [] => by simp [following]
  | n + 1, low, high, bits, b :: bytes => by
    simp only [following]
    split
    · exact Nat.le_succ_of_le (length_following n _ _ _ bytes)
    · simp

/-- The first character of some bytes, a replacement where they are invalid, and the bytes after
it. -/
def firstChar (b : UInt8) (bytes : List UInt8) : Char × List UInt8 :=
  if b.toNat < 0x80 then (Char.ofNat b.toNat, bytes)
  else
    match lead? b.toNat with
    | none => (replacement, bytes)
    | some l =>
      let (c, rest) := following l.following l.low l.high l.bits bytes
      (c.getD replacement, rest)

theorem length_firstChar (b : UInt8) (bytes : List UInt8) :
    (firstChar b bytes).2.length ≤ bytes.length := by
  unfold firstChar
  split
  · exact Nat.le_refl _
  · split
    · exact Nat.le_refl _
    · exact length_following ..

def decodeLossy : List UInt8 → List Char
  | [] => []
  | b :: bytes => (firstChar b bytes).1 :: decodeLossy (firstChar b bytes).2
termination_by bytes => bytes.length
decreasing_by
  have := length_firstChar b bytes
  simp only [List.length_cons]
  omega

end BuildTree.Text
