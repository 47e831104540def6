import Postmortem.Demangle.Itanium.Reader

/-!
# Reading an Itanium C++ symbol: names

The rules of the grammar contain each other. Each is written for a given reader of the parts within
it, and `Itanium.Parser` ties them together down to a fixed depth.
-/
namespace Postmortem.Demangle.Itanium

open Itanium.Parser

/-- How the name of a namespace without a name begins. -/
def anonymousMarks : List (List Char) :=
  ["_GLOBAL__N".toList, "_GLOBAL_.N".toList, "_GLOBAL_$N".toList]

/-- Whether a name is that of a namespace without a name. -/
def isAnonymous (name : String) : Bool := anonymousMarks.any (·.isPrefixOf name.toList)

/-- Whether a character may be part of a name. -/
def isNameChar (c : Char) : Bool := c.isAlphanum || c = '_' || c = '.' || c = '$'

/-- A name of which the characters are given. -/
def identifierRule (cs : List Char) : Parser Node := do
  unless cs.all isNameChar do fail
  return .source (String.ofList cs)

/-- A name after its length. -/
def sourceNameRule (read : Reader) : Parser Node := do
  let length ← number 10
  if length = 0 then fail
  read (.identifier (← take length))

/-- A tag that tells variants of a binary interface apart. -/
def tagRule (read : Reader) : Parser Node := do
  expect "B"
  return .phrase [.text "[abi:", ← read .sourceName, .text "]"]

/-- The codes of operators, how they are spelled, and how many operands they have. -/
def operators : List (String × String × Nat) :=
  [("nw", "new", 3), ("na", "new[]", 3), ("dl", "delete", 1), ("da", "delete[]", 1),
   ("ps", "+", 1), ("ng", "-", 1), ("ad", "&", 1), ("de", "*", 1), ("co", "~", 1),
   ("pl", "+", 2), ("mi", "-", 2), ("ml", "*", 2), ("dv", "/", 2), ("rm", "%", 2),
   ("an", "&", 2), ("or", "|", 2), ("eo", "^", 2), ("aS", "=", 2), ("pL", "+=", 2),
   ("mI", "-=", 2), ("mL", "*=", 2), ("dV", "/=", 2), ("rM", "%=", 2), ("aN", "&=", 2),
   ("oR", "|=", 2), ("eO", "^=", 2), ("ls", "<<", 2), ("rs", ">>", 2), ("lS", "<<=", 2),
   ("rS", ">>=", 2), ("eq", "==", 2), ("ne", "!=", 2), ("lt", "<", 2), ("gt", ">", 2),
   ("le", "<=", 2), ("ge", ">=", 2), ("ss", "<=>", 2), ("nt", "!", 1), ("aa", "&&", 2),
   ("oo", "||", 2), ("pp", "++", 1), ("mm", "--", 1), ("cm", ",", 2), ("pm", "->*", 2),
   ("pt", "->", 2), ("cl", "()", 2), ("ix", "[]", 2), ("qu", "?:", 3)]

/-- How many operands the operator with a spelling has that was read with the code `code`. -/
def operandCount? (code : String) : Option Nat := (operators.lookup code).map (·.2)

/-- The operator with a code. -/
def operatorCodeRule : Parser Node := do
  match operators.lookup (String.ofList (← take 2)) with
  | some (spelling, _) => return .operator spelling
  | none => fail

/-- The name of an operator: one with a code, a conversion, a literal operator, or a foreign one.
What is converted to is read differently in an expression. -/
def operatorNameRule (read : Reader) (inExpression : Bool) : Parser Node := do
  if let some operator ← attempt (read .operatorCode) then return operator
  if ← eat "cv" then
    let converts := (← get).converts
    modify fun state => { state with converts := !inExpression }
    let type ← read .type
    modify fun state => { state with converts := converts }
    return .conversion type
  if ← eat "li" then return .literalOperator (← read .sourceName)
  expect "v"
  let arity ← next
  unless arity.isDigit do fail
  return .foreignOperator (arity.toNat - '0'.toNat) (← read .sourceName)

/-- A constructor or destructor. -/
def structorRule (read : Reader) : Parser Node := do
  if ← eat "C" then
    let inherits ← eat "I"
    unless ['1', '2', '3', '4'].contains (← next) do fail
    return .constructor (← if inherits then some <$> read .type else pure none)
  expect "D"
  unless ['0', '1', '2', '4'].contains (← next) do fail
  return .destructor

/-- A closure: its parameters, and its number among those of a function. -/
def closureRule (read : Reader) : Parser Node := do
  expect "Ul"
  let signature ← read .signature
  expect "E"
  return .closure signature ((← sequenceNumber) + 1)

/-- The parameters of a closure. -/
def signatureRule (read : Reader) : Parser Node := do
  if ← eat "v" then return .signature []
  return .signature (← many1 (read .type))

/-- A type that has no name. -/
def unnamedTypeRule : Parser Node := do
  expect "Ut"
  return .unnamed (max (← sequenceNumber) 1)

/-- A name that is not within another one. -/
def unqualifiedNameRule (read : Reader) : Parser Node := do
  if let some operator ← attempt (read (.operatorName false)) then
    return .unqualified operator (← read .tags)
  if let some structor ← attempt (read .structor) then
    return .unqualified structor (← read .tags)
  if ← eat "L" then
    let name ← read .sourceName
    let _ ← attempt discriminator
    return .unqualified name (← read .tags)
  if let some name ← attempt (read .sourceName) then
    return .unqualified name (← read .tags)
  if let some closure ← attempt (read .closure) then
    return .unqualified closure (← read .tags)
  return .unqualified (← read .unnamedType) (← read .tags)

/-- A name of the standard library with a code of its own. -/
def knownNameRule : Parser Node := do
  expect "S"
  match Known.ofCode? (← next) with
  | some name => return .known name
  | none => fail

/-- A reference back, or a name that has a code of its own. -/
def substitutionRule (read : Reader) : Parser Node := do
  if let some known ← attempt (read .knownName) then return known
  expect "S"
  let index ←
    match ← number? 36 with
    | some n => pure (n + 1)
    | none => pure 0
  unless index < (← get).table.size do fail
  expect "_"
  return .entry index

/-- A name at the outermost level, of the standard library or not. -/
def unscopedNameRule (read : Reader) : Parser Node := do
  let isStandard ← eat "St"
  return .unscoped isStandard (← read .unqualifiedName)

/-- The name of a template at the outermost level. -/
def templateNameRule (read : Reader) : Parser Node := do
  if let some name ← attempt (read .unscopedName) then return ← record (.only name)
  read .substitution

def nameRule (read : Reader) : Parser Node := do
  if let some name ← attempt (read .nestedName) then return .only name
  if let some name ← attempt (read .unscopedName) then
    if (← peek?) ≠ some 'I' then return .only name
    return .unscopedTemplate (← record (.only name)) (← read .arguments)
  if let some name ← attempt (read .templateName) then
    return .unscopedTemplate name (← read .arguments)
  return .only (← read .localName)

/-- Records a part of a nested name, unless the nested name ends with it. -/
def recordScope (node : Node) : Parser Node := do
  if (← peek?) = some 'E' then return node else record node

/-- `name` within what there is of a nested name. -/
def within (current : Option Node) (name : Node) : Node :=
  match current with
  | none => .only name
  | some scope => .within scope name

/-- One more part of a nested name after `current`. -/
def scopeRule (read : Reader) (current : Option Node) : Parser Node := do
  match ← peek? with
  | some 'S' => read .substitution
  | some 'T' => recordScope (.only (← read .templateParam))
  | some 'D' =>
    match ← attempt (read .decltype) with
    | some type => recordScope (.only type)
    | none => recordScope (within current (← read .unqualifiedName))
  | some c =>
    match current with
    | none => recordScope (.only (← read .unqualifiedName))
    | some scope =>
      if c = 'I' then recordScope (.template scope (← read .arguments))
      else if c.isDigit then
        let name ← read .sourceName
        if (← peek?) = some 'M' then
          expect "M"
          record (.member scope (.only name))
        else recordScope (.within scope (.unqualified name (← read .tags)))
      else recordScope (.within scope (← read .unqualifiedName))
  | none => fail

/-- At most `n` further parts of a nested name, up to its end. -/
def scopesUpTo (read : Reader) : Nat → Option Node → Parser Node
  | 0, _ => fail
  | n + 1, current => do
    match ← peek?, current with
    | some 'E', some scope => return scope
    | _, _ => scopesUpTo read n (some (← read (.scope current)))

/-- All the parts of a nested name. -/
def scopesRule (read : Reader) : Parser Node := do
  scopesUpTo read ((← get).rest.length + 1) none

/-- A name that is given with all the names it is within. A nested name ends with a name or with
template arguments, or with a reference to one that does. -/
def nestedNameRule (read : Reader) : Parser Node := do
  expect "N"
  let takesObject ← eat "H"
  let marks ←
    if takesObject then pure ⟨default, none, true⟩
    else do pure ⟨← qualifiers, ← reference?, false⟩
  let last ← read .scopes
  expect "E"
  match last.resolve (← get).table with
  | .within scope name => return .nested marks [scope, .text "::", name]
  | .only (.unqualified name tags) => return .nested marks [.unqualified name tags]
  | .template .. => return .nested marks [last]
  | _ => fail

/-- A name in the body of a function: a string, an entity of a default argument, or any other. -/
def localNameRule (read : Reader) : Parser Node := do
  expect "Z"
  let function ← read .encoding
  expect "E"
  if ← eat "s" then
    let _ ← attempt discriminator
    return .localName function (.text "string literal")
  if ← eat "d" then
    let _ ← attempt signed
    expect "_"
    return .defaultArgument function (← read .name)
  let entity ← read .name
  let _ ← attempt discriminator
  return .localName function entity

end Postmortem.Demangle.Itanium
