import Postmortem.Demangle.Microsoft.Node

/-!
# Reading a Microsoft C++ symbol: words and the two lists of references

The first ten different names and the first ten different parameter types of more than one
character may be referred to by a digit.
-/
namespace Postmortem.Demangle.Microsoft

/-- What is left to read, and what may be referred to. -/
structure State where
  rest : List Char
  names : Array Node
  types : Array Node

/-- Reads a part of a symbol. -/
abbrev Parser := StateT State Option

namespace Parser

def fail {α : Type} : Parser α := failure

def peek? : Parser (Option Char) := do return (← get).rest.head?

def next : Parser Char := do
  match (← get).rest with
  | [] => fail
  | c :: rest =>
    modify fun state => { state with rest := rest }
    return c

/-- Takes the given text if it comes next. -/
def eat (text : String) : Parser Bool := do
  match text.toList.isPrefixOf? (← get).rest with
  | some rest =>
    modify fun state => { state with rest := rest }
    return true
  | none => return false

def expect (text : String) : Parser Unit := do
  unless ← eat text do fail

/-- The results of `p`, at most `n` of them, up to an at sign. -/
def listUpTo {α : Type} (p : Parser α) : Nat → Parser (List α)
  | 0 => fail
  | n + 1 => do
    if ← eat "@" then return []
    return (← p) :: (← listUpTo p n)

/-- The results of `p` up to an at sign, for a `p` that takes at least a character. -/
def list {α : Type} (p : Parser α) : Parser (List α) := do
  listUpTo p ((← get).rest.length + 1)

/-- How many names and how many types may be referred to. -/
def memory : Nat := 10

/-- The value of a hexadecimal digit, which is coded as one of the letters from `A` to `P`. -/
def nibble? (c : Char) : Option Nat :=
  if 'A' ≤ c ∧ c ≤ 'P' then some (c.toNat - 'A'.toNat) else none

/-- The value of a digit. -/
def digit? (c : Char) : Option Nat :=
  if '0' ≤ c ∧ c ≤ '9' then some (c.toNat - '0'.toNat) else none

/-- A number of 32 bits: a digit for one to ten, or hexadecimal digits up to an at sign, of which
the last eight count; after a question mark if it is negative. -/
def number : Parser Int := do
  let isNegative ← eat "?"
  let n ←
    match (← peek?).bind digit? with
    | some d =>
      let _ ← next
      pure (d + 1)
    | none =>
      let rest := (← get).rest
      let digits := rest.takeWhile fun c => (nibble? c).isSome
      modify fun state => { state with rest := rest.drop digits.length }
      expect "@"
      pure (digits.foldl (fun n c => n * 16 + (nibble? c).getD 0) 0)
  return Int.bmod (if isNegative then -(n : Int) else n) UInt32.size

/-- The characters up to an at sign. -/
def word : Parser String := do
  let rest := (← get).rest
  let cs := rest.takeWhile (· ≠ '@')
  modify fun state => { state with rest := rest.drop cs.length }
  expect "@"
  return String.ofList cs

/-- Adds a part to those that may be referred to, unless it is there already or there are enough. -/
def remembering (known : Array Node) (node : Node) : Array Node :=
  if known.size < memory && !known.any node.isSame then known.push node else known

def rememberName (name : Node) : Parser Unit :=
  modify fun state => { state with names := remembering state.names name }

def rememberType (type : Node) : Parser Unit :=
  modify fun state => { state with types := remembering state.types type }

/-- The name that a digit refers to. -/
def rememberedName : Parser Node := do
  let some d := digit? (← next) | fail
  match (← get).names[d]? with
  | some name => return name
  | none => fail

/-- The qualifiers that a letter stands for. -/
def qualifiers? : Char → Option Qualifiers
  | 'A' => some .none
  | 'B' => some ⟨true, false⟩
  | 'C' => some ⟨false, true⟩
  | 'D' => some ⟨true, true⟩
  | _ => none

/-- The qualifiers that a letter stands for, or its qualifiers in far memory. -/
def storage? : Char → Option Qualifiers
  | 'E' => some .none
  | 'F' => some ⟨true, false⟩
  | 'G' => some ⟨false, true⟩
  | 'H' => some ⟨true, true⟩
  | c => qualifiers? c

/-- The value of the next character, which is taken if it has one. -/
def nextWith? {α : Type} (value? : Char → Option α) : Parser (Option α) := do
  match (← peek?).bind value? with
  | some a =>
    let _ ← next
    return some a
  | none => return none

/-- The qualifiers of what is stored. There may be none. -/
def storage : Parser Qualifiers := do return (← nextWith? storage?).getD .none

/-- The qualifiers of the result of a function, after a question mark. -/
def resultQualifiers : Parser Qualifiers := do
  if ← eat "?" then
    match ← nextWith? qualifiers? with
    | some q => return q
    | none => fail
  return .none

/-- How a function is called. -/
def convention : Parser String := do
  match ← next with
  | 'A' | 'B' => return "__cdecl"
  | 'C' => return "__pascal"
  | 'E' => return "__thiscall"
  | 'G' => return "__stdcall"
  | 'I' => return "__fastcall"
  | _ => fail

end Parser

end Postmortem.Demangle.Microsoft
