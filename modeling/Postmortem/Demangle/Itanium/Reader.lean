import Postmortem.Demangle.Itanium.Node

/-!
# Reading an Itanium C++ symbol: words and the table of references

A symbol is read byte by byte, each byte as a character. A part that may be referred to later is
recorded in a table. The table keeps what was recorded on an attempt that failed later, so that the
numbers of the references stay those of the symbol's maker.
-/
namespace Postmortem.Demangle.Itanium

/-- What is left to read, the parts that may be referred to, and how many lists of template
arguments there were. `converts` is set in the type that an operator converts to. -/
structure State where
  rest : List Char
  table : Table
  lists : Nat
  converts : Bool

/-- Why a part cannot be read. -/
inductive Failure where
  /-- The input is something else. -/
  | mismatch
  /-- Parts are nested too deeply; the whole symbol is given up. -/
  | tooDeep
  deriving DecidableEq, Repr

/-- Reads a part of a symbol. -/
abbrev Parser := EStateM Failure State

namespace Parser

/-- Gives up on what is being read. -/
def fail {α : Type} : Parser α := throw .mismatch

/-- The result of `p`; if the input is something else, nothing is taken. -/
def attempt {α : Type} (p : Parser α) : Parser (Option α) := fun state =>
  match p state with
  | .ok a state => .ok (some a) state
  | .error .mismatch after => .ok none { state with table := after.table, lists := after.lists }
  | .error .tooDeep after => .error .tooDeep after

/-- The next character. -/
def peek? : Parser (Option Char) := do return (← get).rest.head?

/-- Takes a character. -/
def next : Parser Char := do
  match (← get).rest with
  | [] => fail
  | c :: rest =>
    modify fun state => { state with rest := rest }
    return c

/-- Takes the given text if it comes next. -/
def eat (text : String) : Parser Bool := do
  match text.toList.isPrefixOf? (← get).rest with
  | some rest =>
    modify fun state => { state with rest := rest }
    return true
  | none => return false

/-- Takes the given text. -/
def expect (text : String) : Parser Unit := do
  unless ← eat text do fail

/-- At most `n` results of `p`, up to the first failure. -/
def manyUpTo {α : Type} (p : Parser α) : Nat → Parser (List α)
  | 0 => return []
  | n + 1 => do
    match ← attempt p with
    | none => return []
    | some a => return a :: (← manyUpTo p n)

/-- The results of `p` up to the first failure, for a `p` that takes at least a character. -/
def many {α : Type} (p : Parser α) : Parser (List α) := do
  manyUpTo p ((← get).rest.length + 1)

/-- At least one result of `p`. -/
def many1 {α : Type} (p : Parser α) : Parser (List α) := do
  let first ← p
  return first :: (← many p)

/-- The results of `p` up to the closing `E`. -/
def manyToEnd {α : Type} (p : Parser α) : Parser (List α) := do
  let results ← many p
  expect "E"
  return results

/-- The longest run of characters with `p`. -/
def run (p : Char → Bool) : Parser (List Char) := do
  let cs := (← get).rest.takeWhile p
  modify fun state => { state with rest := state.rest.drop cs.length }
  return cs

/-- The next `n` characters. -/
def take (n : Nat) : Parser (List Char) := do
  let cs := (← get).rest.take n
  if cs.length < n then fail
  modify fun state => { state with rest := state.rest.drop n }
  return cs

/-- The value of a digit of a number in the given base, which has upper case letters. -/
def digit? (base : Nat) (c : Char) : Option Nat :=
  let value :=
    if '0' ≤ c ∧ c ≤ '9' then some (c.toNat - '0'.toNat)
    else if 'A' ≤ c ∧ c ≤ 'Z' then some (c.toNat - 'A'.toNat + 10)
    else none
  value.filter (· < base)

/-- A number without leading zeros that fits a signed machine word. -/
def number (base : Nat) : Parser Nat := do
  let digits ← run fun c => (digit? base c).isSome
  if digits.isEmpty || (digits.length > 1 && digits.head? = some '0') then fail
  let n := digits.foldl (fun n c => n * base + (digit? base c).getD 0) 0
  if n < 1 <<< 63 then return n else fail

/-- A decimal number, with an `n` in front when it is negative. -/
def signed : Parser Int := do
  if ← eat "n" then return -(← number 10) else return ← number 10

/-- A number that may be missing. -/
def number? (base : Nat) : Parser (Option Nat) := attempt (number base)

/-- Records a part for later reference. The part is made for the place it gets. -/
def recordAs (node : Nat → Node) : Parser Node := do
  let index := (← get).table.size
  modify fun state => { state with table := state.table.push (node index) }
  return .entry index

/-- Records a part for later reference. -/
def record (node : Node) : Parser Node := recordAs fun _ => node

/-- A number for a list of template arguments. -/
def freshList : Parser Nat := do
  let id := (← get).lists
  modify fun state => { state with lists := id + 1 }
  return id

/-- A number that ends in an underscore and stands for one more; none stands for zero. -/
def sequenceNumber : Parser Nat := do
  let n ← number? 10
  expect "_"
  return match n with
    | some n => n + 1
    | none => 0

/-- What tells local names apart that are spelled alike. -/
def discriminator : Parser Unit := do
  expect "_"
  if ← eat "_" then
    if (← number 10) < 10 then fail
    expect "_"
  else
    unless (← next).isDigit do fail

/-- The qualifiers before a type, which may be none. -/
def qualifiers : Parser Qualifiers := do
  let isRestrict ← eat "r"
  let isVolatile ← eat "V"
  let isConst ← eat "K"
  return ⟨isConst, isVolatile, isRestrict⟩

/-- The mark of a member function that takes only objects of one kind. -/
def reference? : Parser (Option String) := do
  if ← eat "R" then return some "&"
  else if ← eat "O" then return some "&&"
  else return none

end Parser

/-- The productions of the grammar. Each is a level of nesting. -/
inductive Production where
  | symbol
  | clone
  | keyed
  | encoding
  | specialName
  | name
  | unscopedName
  | templateName
  | nestedName
  | scopes
  /-- One more part of a nested name after what there is of it. -/
  | scope (current : Option Node)
  | localName
  | unqualifiedName
  | tags
  | tag
  | sourceName
  /-- A name of which the characters are given. -/
  | identifier (cs : List Char)
  /-- The name of an operator, in an expression or where an operator is declared. -/
  | operatorName (inExpression : Bool)
  | operatorCode
  | structor
  | closure
  | signature
  | unnamedType
  | substitution
  | knownName
  | type
  /-- The types of a function, as a phrase. -/
  | types
  | builtin
  | standardBuiltin
  | parametricBuiltin
  | classEnum
  | functionType
  | exceptions
  | arrayType
  | vectorType
  | memberPointer
  | templateParam
  | templateTemplate
  | decltype
  | arguments
  | argument
  | expression
  | literal
  | functionParam
  | unresolvedName
  | unresolvedBase
  | unresolvedType
  | simpleName
  | destructorName
  | memberName
  | initializer
  | subobject

/-- Reads what a production stands for. -/
abbrev Reader := Production → Parser Node

end Postmortem.Demangle.Itanium
