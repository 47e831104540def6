/-!
# Names outside ASCII

Such a name is written as its ASCII characters and, apart from them, as a series of numbers in a
variable length base 36 code that say which other characters go where. The code adapts to the size
of the numbers.
-/
namespace Postmortem.Demangle.Rust.Punycode

/-- The value of a digit. -/
def digit? (c : Char) : Option Nat :=
  if 'a' ≤ c ∧ c ≤ 'z' then some (c.toNat - 'a'.toNat)
  else if '0' ≤ c ∧ c ≤ '9' then some (26 + (c.toNat - '0'.toNat))
  else none

/-- The largest machine word. Nothing larger comes up in decoding. -/
def wordLimit : Nat := UInt64.size

/-- A value that fits a machine word. -/
def word? (n : Nat) : Option Nat := if n < wordLimit then some n else none

/-- The threshold of the digit at `k`: a smaller digit is the last one. -/
def threshold (k bias : Nat) : Nat := min (max (k - bias) 1) 26

/-- Reads a number whose digits so far add up to `delta`; the next digit counts `weight`. -/
def delta? (bias k weight delta : Nat) : List Char → Option (Nat × List Char)
  | [] => none
  | c :: rest => do
    let d ← digit? c
    let t := threshold (k + 36) bias
    let sum ← word? (delta + (← word? (d * weight)))
    if d < t then some (sum, rest)
    else delta? bias (k + 36) (← word? (weight * (36 - t))) sum rest

/-- How the next number is coded, given the last one. -/
def adapt (k delta : Nat) : Nat :=
  if 455 < delta then adapt (k + 36) (delta / 35) else k + 36 * delta / (delta + 38)
termination_by delta
decreasing_by omega

/-- Inserts characters into `out` until the digits end. `n` is the character reached and `i` the
place, `damp` tones down the adaptation. -/
def insertions? : Nat → (n i bias damp : Nat) → (out digits : List Char) → Option (List Char)
  | 0, _, _, _, _, _, _ => none
  | steps + 1, n, i, bias, damp, out, digits => do
    let (delta, rest) ← delta? bias 0 1 0 digits
    let length := out.length + 1
    let i ← word? (i + delta)
    let n := n + i / length
    let i := i % length
    if h : n.isValidChar then
      let out := out.take i ++ Char.ofNatAux n h :: out.drop i
      if out.length > 128 then none
      else if rest.isEmpty then some out
      else
        let delta := delta / damp
        insertions? steps n (i + 1) (adapt 0 (delta + delta / length)) 2 out rest
    else none

/-- The name with the given ASCII characters and numbers, when it is well formed and has at most
128 characters. -/
def decode? (ascii digits : List Char) : Option (List Char) :=
  if ascii.length > 128 then none else insertions? digits.length 0x80 0 72 700 ascii digits

end Postmortem.Demangle.Rust.Punycode
