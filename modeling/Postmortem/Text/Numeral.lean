/-!
# Numbers in decimal
-/
namespace Postmortem.Text

/-- The value of a decimal digit. -/
def digitValue? (c : Char) : Option Nat :=
  if '0' ≤ c ∧ c ≤ '9' then some (c.toNat - '0'.toNat) else none

/-- The number that continues `acc` with the given digits; `none` when one of them is no digit. -/
def decimalFrom? (acc : Nat) : List Char → Option Nat
  | [] => some acc
  | c :: rest => do decimalFrom? (acc * 10 + (← digitValue? c)) rest

/-- A non-empty run of decimal digits. -/
def decimal? : List Char → Option Nat
  | [] => none
  | cs => decimalFrom? 0 cs

/-- A decimal number that may have a plus sign in front. -/
def signedDecimal? : List Char → Option Nat
  | '+' :: cs => decimal? cs
  | cs => decimal? cs

end Postmortem.Text
