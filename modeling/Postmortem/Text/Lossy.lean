/-!
# Text from bytes that may not be valid UTF-8

Names in an image are bytes. `decodeLossy` reads them as UTF-8 and puts one replacement character
for every longest run of bytes that begins a well-formed character and then breaks off; a byte that
begins none is such a run by itself. Valid UTF-8 is read unchanged.
-/
namespace Postmortem.Text

/-- How a well-formed character of more than one byte goes on after its first byte: the bits that
the first byte contributes, the number of bytes that follow, and the range the first of them is
in. All further ones are in `[0x80, 0xBF]`. -/
structure Lead where
  bits : Nat
  following : Nat
  low : UInt8
  high : UInt8

/-- The first bytes of characters of more than one byte. The narrowed ranges exclude overlong
forms, surrogates and values above `0x10FFFF`. -/
def lead? (b : UInt8) : Option Lead :=
  if 0xC2 ≤ b ∧ b ≤ 0xDF then some ⟨b.toNat % 32, 1, 0x80, 0xBF⟩
  else if b = 0xE0 then some ⟨0, 2, 0xA0, 0xBF⟩
  else if b = 0xED then some ⟨13, 2, 0x80, 0x9F⟩
  else if 0xE1 ≤ b ∧ b ≤ 0xEF then some ⟨b.toNat % 16, 2, 0x80, 0xBF⟩
  else if b = 0xF0 then some ⟨0, 3, 0x90, 0xBF⟩
  else if b = 0xF4 then some ⟨4, 3, 0x80, 0x8F⟩
  else if 0xF1 ≤ b ∧ b ≤ 0xF3 then some ⟨b.toNat % 8, 3, 0x80, 0xBF⟩
  else none

/-- The code point that continues with `n` bytes, `none` when it breaks off, and the bytes that
are left either way. -/
def continuation : Nat → UInt8 → UInt8 → Nat → List UInt8 → Option Nat × List UInt8
  | 0, _, _, bits, rest => (some bits, rest)
  | _ + 1, _, _, _, [] => (none, [])
  | n + 1, low, high, bits, b :: rest =>
    if low ≤ b ∧ b ≤ high then continuation n 0x80 0xBF (bits * 64 + b.toNat % 64) rest
    else (none, b :: rest)

theorem length_continuation_le (n : Nat) (low high : UInt8) (bits : Nat) (bytes : List UInt8) :
    (continuation n low high bits bytes).2.length ≤ bytes.length := by
  induction n generalizing low high bits bytes with
  | zero => simp [continuation]
  | succ n ih =>
    cases bytes with
    | nil => simp [continuation]
    | cons b rest =>
      simp only [continuation]
      split
      · exact Nat.le_trans (ih ..) (Nat.le_succ _)
      · exact Nat.le_refl _

/-- The replacement character. -/
def replacement : Char := '\ufffd'

/-- The characters of `bytes`, with a replacement character for every broken one. -/
def decodeLossy (bytes : List UInt8) : List Char :=
  match bytes with
  | [] => []
  | b :: rest =>
    if b < 0x80 then Char.ofNat b.toNat :: decodeLossy rest
    else
      match lead? b with
      | none => replacement :: decodeLossy rest
      | some l =>
        have := length_continuation_le l.following l.low l.high l.bits rest
        ((continuation l.following l.low l.high l.bits rest).1.map Char.ofNat).getD replacement ::
          decodeLossy (continuation l.following l.low l.high l.bits rest).2
termination_by bytes.length
decreasing_by all_goals simp only [List.length_cons]; omega

/-- `decodeLossy` on a whole buffer. -/
def lossy (b : ByteArray) : String :=
  (String.fromUTF8? b).getD (String.ofList (decodeLossy b.toList))

end Postmortem.Text
