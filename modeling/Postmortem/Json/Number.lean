import Postmortem.Json.Reader
import Postmortem.Text.Numeral

/-!
# Reading JSON: numbers

Only natural numbers are wanted. A number with a sign, a fraction or an exponent is read to its end
and is then one of another type, unless it is too large for a floating-point number, which no
document may hold. That is decided as floating-point arithmetic would: at most 64 bits of the
digits are scaled by a power of ten, each of the two and their product rounded.
-/
namespace Postmortem.Json

open Text

/-- `n` with all but its first 53 bits rounded away; a tie goes to the even neighbour. -/
def roundedTo53 (n : Nat) : Nat :=
  let excess := n.log2 + 1 - 53
  let unit := 1 <<< excess
  let kept := n / unit
  let twice := 2 * (n % unit)
  (if twice < unit ∨ (twice = unit ∧ kept % 2 = 0) then kept else kept + 1) * unit

/-- The least number that is rounded to no finite one. -/
def floatLimit : Nat := 1 <<< 1024 - 1 <<< 970

/-- Whether `significand` times ten to the power of `exponent` is too large. -/
def exceedsFloat (significand : Nat) (exponent : Int) : Bool :=
  match exponent with
  | .ofNat e =>
    significand ≠ 0 &&
      (308 < e || floatLimit ≤ roundedTo53 significand * roundedTo53 (Nat.pow 10 e))
  | .negSucc _ => false

/-- The largest significand: what does not fit 64 bits any more is left out. -/
def significandLimit : Nat := UInt64.size

/-- Adds digits to a significand as long as it fits, and gives the digits that are left. -/
def significandOf (n : Nat) : List Char → Nat × List Char
  | [] => (n, [])
  | c :: cs =>
    let m := n * 10 + (digitValue? c).getD 0
    if m < significandLimit then significandOf m cs else (n, c :: cs)

/-- The exponent of a number may not be larger than this; a larger one counts as infinite. -/
def exponentLimit : Nat := 1 <<< 31

namespace Reader

/-- The part after the `e` of a number with the given digits and exponent so far. -/
def exponent (significand : Nat) (start : Int) : Reader Unit := do
  drop
  let sign ← optional fun c => c = '+' || c = '-'
  let first ← next
  unless first.isDigit do throw .malformed
  let ds := first :: (← digits)
  let n := (decimal? ds).getD 0
  let isNegative := sign = some '-'
  if n < exponentLimit then
    if exceedsFloat significand (if isNegative then start - n else start + n) then
      throw .malformed
  else if significand ≠ 0 && !isNegative then throw .malformed

/-- The part after the point. -/
def fraction (significand : Nat) (start : Int) : Reader Unit := do
  drop
  let ds ← digits
  if ds.isEmpty then throw (if (← peek?).isSome then .malformed else .incomplete)
  let (significand, left) := significandOf significand ds
  let start := start - (ds.length - left.length : Nat)
  match ← peek? with
  | some 'e' | some 'E' => exponent significand start
  | _ => if exceedsFloat significand start then throw .malformed

/-- A number without its sign; the value if it is a natural one of at most 64 bits. -/
def number (isPositive : Bool) : Reader (Option Nat) := do
  let first ← next
  unless first.isDigit do throw .malformed
  let ds ← if first = '0' then pure [] else digits
  if first = '0' && (← peek?).any Char.isDigit then throw .malformed
  let (significand, left) := significandOf 0 (first :: ds)
  match ← peek? with
  | some '.' =>
    fraction significand left.length
    return none
  | some 'e' | some 'E' =>
    exponent significand left.length
    return none
  | _ =>
    if left.isEmpty then return if isPositive then some significand else none
    if exceedsFloat significand left.length then throw .malformed
    return none

/-- Passes over the digits after the `e` of a number. -/
def skipExponent : Reader Unit := do
  drop
  let _ ← optional fun c => c = '+' || c = '-'
  if (← digits).isEmpty then throw .malformed

/-- Passes over a number without its sign, however large it is. -/
def skipNumber : Reader Unit := do
  let ds ← digits
  match ds with
  | [] | '0' :: _ :: _ => throw .malformed
  | _ => pure ()
  if (← peek?) = some '.' then
    drop
    if (← digits).isEmpty then throw .malformed
  match ← peek? with
  | some 'e' | some 'E' => skipExponent
  | _ => return

end Reader

end Postmortem.Json
