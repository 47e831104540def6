import Postmortem.Demangle.Rust.Punycode
import Postmortem.Text.Hex
import Postmortem.Text.Numeral

/-!
# The words of a newer Rust symbol

A symbol is a series of tags, numbers in base 62, runs of hexadecimal digits and names after their
length. A reader takes one of these at a position and says where it ends.
-/
namespace Postmortem.Demangle.Rust

open Text

/-- Why a symbol cannot be read on. -/
inductive Fault where
  | invalid
  | tooDeep
  deriving DecidableEq, Repr

/-- What is shown in the place of the part that cannot be read. -/
def Fault.message : Fault → String
  | .invalid => "\x7binvalid syntax\x7d"
  | .tooDeep => "\x7brecursion limit reached\x7d"

/-- Takes a word of the symbol at a position and gives the position after it. -/
abbrev Reader := ReaderT (Array Char) (StateT Nat (Except Fault))

namespace Reader

/-- The character at the position. -/
def peek? : Reader (Option Char) := do return (← read)[← get]?

/-- Takes any character. -/
def next : Reader Char := do
  let some c ← peek? | throw .invalid
  modify (· + 1)
  return c

/-- Takes `c` if it comes next. -/
def eat (c : Char) : Reader Bool := do
  if (← peek?) = some c then
    modify (· + 1)
    return true
  else return false

/-- The characters with `p` from place `i` on, up to the first one without. -/
def runFrom (symbol : Array Char) (p : Char → Bool) (i : Nat) : List Char :=
  if h : i < symbol.size then
    if p symbol[i] then symbol[i] :: runFrom symbol p (i + 1) else []
  else []
termination_by symbol.size - i

/-- The longest run of characters with `p`. -/
def run (p : Char → Bool) : Reader (List Char) := do
  let cs := runFrom (← read) p (← get)
  modify (· + cs.length)
  return cs

/-- The value of a digit in base 62. -/
def digit62? (c : Char) : Option Nat :=
  if '0' ≤ c ∧ c ≤ '9' then some (c.toNat - '0'.toNat)
  else if 'a' ≤ c ∧ c ≤ 'z' then some (10 + (c.toNat - 'a'.toNat))
  else if 'A' ≤ c ∧ c ≤ 'Z' then some (36 + (c.toNat - 'A'.toNat))
  else none

/-- A value of at most 64 bits. -/
def word (n : Nat) : Reader Nat := if n < Punycode.wordLimit then return n else throw .invalid

/-- A number in base 62 up to an underscore. The empty number is zero, and every other one counts
from one. -/
def integer : Reader Nat := do
  let digits ← run fun c => (digit62? c).isSome
  unless ← eat '_' do throw .invalid
  if digits.isEmpty then return 0
  word (digits.foldl (fun n c => n * 62 + (digit62? c).getD 0) 0 + 1)

/-- A number after `tag`, counted from one; zero without the tag. -/
def optInteger (tag : Char) : Reader Nat := do
  if ← eat tag then word ((← integer) + 1) else return 0

/-- What tells names apart that are spelled alike. -/
def disambiguator : Reader Nat := optInteger 's'

/-- Lower case hexadecimal digits up to an underscore. -/
def nibbles : Reader (List Char) := do
  let digits ← run fun c => c.isDigit || ('a' ≤ c && c ≤ 'f')
  unless ← eat '_' do throw .invalid
  return digits

/-- The target of a reference back, whose tag was just taken: a place before that tag. `canDescend`
says whether the target may still be entered. -/
def backref (canDescend : Bool) : Reader Nat := do
  let tag := (← get) - 1
  let target ← integer
  if target ≥ tag then throw .invalid
  unless canDescend do throw .tooDeep
  return target

end Reader

/-- The value of at most sixteen hexadecimal digits, leading zeros apart. -/
def nibblesValue? (digits : List Char) : Option Nat :=
  let significant := digits.dropWhile (· = '0')
  if significant.length > 16 then none
  else some (significant.foldl (fun n c => n * 16 + (hexValue? c).getD 0) 0)

/-- The bytes that pairs of hexadecimal digits stand for. -/
def nibblesBytes? : List Char → Option (List UInt8)
  | [] => some []
  | [_] => none
  | a :: b :: rest => do
    let bytes ← nibblesBytes? rest
    return UInt8.ofNat ((← hexValue? a) * 16 + (← hexValue? b)) :: bytes

/-- A name: its ASCII characters, and the numbers that place the other ones. -/
structure Ident where
  ascii : List Char
  punycode : List Char
  deriving DecidableEq, Repr

namespace Ident

def isEmpty (i : Ident) : Bool := i.ascii.isEmpty && i.punycode.isEmpty

/-- Splits a name that has other than ASCII characters at its last underscore. -/
def ofEncoded (cs : List Char) : Ident :=
  let tail := cs.reverse.takeWhile (· ≠ '_')
  ⟨cs.take (cs.length - tail.length - 1), tail.reverse⟩

/-- A name that cannot be decoded is shown as it is coded. -/
def text (i : Ident) : String :=
  if i.punycode.isEmpty then String.ofList i.ascii
  else
    match Punycode.decode? i.ascii i.punycode with
    | some cs => String.ofList cs
    | none =>
      "punycode\x7b" ++ (if i.ascii.isEmpty then "" else String.ofList i.ascii ++ "-") ++
        String.ofList i.punycode ++ "\x7d"

/-- Reads a name: a `u` if it has other than ASCII characters, its length, and an underscore if
digits would follow the length directly. -/
def read : Reader Ident := do
  let encoded ← Reader.eat 'u'
  let length ← do
    if ← Reader.eat '0' then pure 0
    else
      let some n := decimal? (← Reader.run Char.isDigit) | throw .invalid
      Reader.word n
  let _ ← Reader.eat '_'
  let start ← get
  let symbol ← MonadReader.read
  if start + length > symbol.size then throw .invalid
  set (start + length)
  let cs := (symbol.extract start (start + length)).toList
  if encoded then
    let i := ofEncoded cs
    if i.punycode.isEmpty then throw .invalid
    return i
  else return ⟨cs, []⟩

end Ident

end Postmortem.Demangle.Rust
