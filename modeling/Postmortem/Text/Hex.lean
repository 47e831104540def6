/-!
# Numbers in hexadecimal

Addresses and codes are written in base sixteen, either with as few digits as possible or filled
with zeros to a fixed width. Digits above nine are lower case unless a name says otherwise.
-/
namespace Postmortem.Text

/-- The digits of `n` in base sixteen, most significant first, without leading zeros. -/
def hexDigits (n : Nat) : List Char := Nat.toDigits 16 n

/-- `n` in base sixteen. -/
def hex (n : Nat) : String := String.ofList (hexDigits n)

/-- `s` filled with `fill` on the left to at least `width` characters. -/
def padLeft (width : Nat) (fill : Char) (s : String) : String :=
  String.ofList (List.replicate (width - s.length) fill) ++ s

/-- `n` in base sixteen with at least `width` digits. -/
def hexPadded (width n : Nat) : String := padLeft width '0' (hex n)

/-- `n` in base sixteen with at least `width` digits, those above nine in upper case. -/
def hexPaddedUpper (width n : Nat) : String :=
  padLeft width '0' (String.ofList ((hexDigits n).map Char.toUpper))

/-- `n` in base sixteen after `0x`. -/
def hexMarked (n : Nat) : String := "0x" ++ hex n

/-- The value of a hexadecimal digit of either case. -/
def hexValue? (c : Char) : Option Nat :=
  if '0' ≤ c ∧ c ≤ '9' then some (c.toNat - '0'.toNat)
  else if 'a' ≤ c ∧ c ≤ 'f' then some (c.toNat - 'a'.toNat + 10)
  else if 'A' ≤ c ∧ c ≤ 'F' then some (c.toNat - 'A'.toNat + 10)
  else none

end Postmortem.Text
