import Postmortem.Json.Number

/-!
# Reading JSON: values that are not wanted

A value that is not wanted is passed over, however deep it is nested.
-/
namespace Postmortem.Json.Reader

/-- Passes over at most `n` further parts of a list or an object, up to its closing bracket. -/
def skipParts (part : Reader Unit) (closing : Char) : Nat → Reader Unit
  | 0 => throw .malformed
  | n + 1 => do
    let c ← peekToken
    if c = ',' then
      drop
      part
      skipParts part closing n
    else if c = closing then drop
    else throw .malformed

/-- Passes over a list or an object after its opening bracket. -/
def skipBracketed (part : Reader Unit) (closing : Char) (n : Nat) : Reader Unit := do
  if (← peekToken) = closing then drop
  else
    part
    skipParts part closing n

/-- Passes over a name and the colon after it. -/
def skipName : Reader Unit := do
  expectToken '"'
  skipString
  expectToken ':'

/-- Passes over a value with at most `n` parts. -/
def skipValueUpTo : Nat → Reader Unit
  | 0 => throw .malformed
  | n + 1 => do
    match ← peekToken with
    | 'n' => word "null".toList
    | 't' => word "true".toList
    | 'f' => word "false".toList
    | '"' =>
      drop
      skipString
    | '[' =>
      drop
      skipBracketed (skipValueUpTo n) ']' n
    | '\x7b' =>
      drop
      skipBracketed (do skipName; skipValueUpTo n) '\x7d' n
    | '-' =>
      drop
      skipNumber
    | c => if c.isDigit then skipNumber else throw .malformed

/-- Passes over a value. A value has no more parts than characters. -/
def skipValue : Reader Unit := do skipValueUpTo ((← get).length + 1)

end Postmortem.Json.Reader
