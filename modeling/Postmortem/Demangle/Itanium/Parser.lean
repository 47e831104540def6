import Postmortem.Demangle.Itanium.Expression
import Postmortem.Demangle.Itanium.Type

/-!
# Reading an Itanium C++ symbol

A symbol is `_Z`, what it encodes, and perhaps marks of the copies that an optimizer made of a
function. Its parts may be nested to a fixed depth.
-/
namespace Postmortem.Demangle.Itanium

open Itanium.Parser

/-- The mark of a copy: a word and numbers. -/
def cloneRule : Parser Node := do
  expect "."
  let word ← run fun c => c.isAlphanum || c = '_' || c = '$'
  if word.isEmpty then fail
  let numbers ← many do
    expect "."
    number 10
  return .text (" [clone ." ++ String.ofList word ++
    String.join (numbers.map fun n => "." ++ toString n) ++ "]")

/-- What runs at the start or the end of the program for the sake of another symbol. -/
def keyedRule (read : Reader) : Parser Node := do
  unless ['_', '.', '$'].contains (← next) do fail
  let word ←
    if ← eat "I" then pure "constructors"
    else do expect "D"; pure "destructors"
  expect "_"
  return .keyed ("global " ++ word ++ " keyed to ") (← read .symbol)

/-- A symbol, which may stand for a block of a function; for what runs at the start or the end of
the program; or for a type. -/
def symbolRule (read : Reader) : Parser Node := do
  if ← eat "_Z" <||> eat "__Z" then
    let encoding ← read .encoding
    return .symbol encoding (← many (read .clone))
  if ← eat "___Z" <||> eat "____Z" then
    let encoding ← read .encoding
    expect "_block_invoke"
    if ← eat "_" <||> eat "." then
      let _ ← number 10
    else
      let _ ← number? 10
    return .phrase [.text "invocation function for block in ", encoding]
  if ← eat "_GLOBAL_" then return .only (← read .keyed)
  return .only (← read .type)

/-- By how much a function adjusts the object it is called on. -/
def callOffset : Parser Node := do
  if ← eat "h" then
    let n ← signed
    expect "_"
    return .text ("\x7boffset(" ++ toString n ++ ")\x7d")
  expect "v"
  let n ← signed
  expect "_"
  let m ← signed
  expect "_"
  return .text ("\x7bvirtual offset(" ++ toString n ++ ", " ++ toString m ++ ")\x7d")

/-- The spelling of the name of a resource, in which some characters are coded. -/
def resourceName : List Char → List Char
  | '$' :: 'S' :: rest => '/' :: resourceName rest
  | '$' :: '_' :: rest => '.' :: resourceName rest
  | '$' :: '$' :: rest => '$' :: resourceName rest
  | '$' :: _ :: rest => resourceName rest
  | '$' :: [] => []
  | c :: rest => c :: resourceName rest
  | [] => []

/-- Special names that are words before a type, a name or an encoding, and perhaps text after it. -/
def prefixedNames : List (String × String × Production × String) :=
  [("TV", "\x7bvtable(", .type, ")\x7d"), ("TT", "\x7bvtt(", .type, ")\x7d"),
   ("TI", "typeinfo for ", .type, ""), ("TS", "typeinfo name for ", .type, ""),
   ("TF", "typeinfo fn for ", .type, ""), ("TH", "TLS init function for ", .name, ""),
   ("TW", "TLS wrapper function for ", .name, ""), ("GV", "guard variable for ", .name, "")]

/-- Tables and functions that a compiler makes by itself. -/
def specialNameRule (read : Reader) : Parser Node := do
  let state ← get
  let code := String.ofList (← take 2)
  if let some (lead, production, trail) := prefixedNames.lookup code then
    return .phrase [.text lead, ← read production, .text trail]
  match code with
  | "Tc" =>
    let this ← callOffset
    let result ← callOffset
    return .phrase [.text "\x7bvirtual override thunk(", this, .text ", ", result, .text ", ",
      ← read .encoding, .text ")\x7d"]
  | "TC" =>
    let derived ← read .type
    let _ ← number 10
    expect "_"
    return .phrase [.text "construction vtable for ", derived, .text "-in-", ← read .type]
  | "GR" =>
    let name ← read .name
    let n ← match ← number? 36 with
      | some n => pure (n + 1)
      | none => pure 0
    expect "_"
    return .phrase [.text ("reference temporary #" ++ toString n ++ " for "), name]
  | "Gr" =>
    match ← take (← number 10) with
    | '_' :: c :: name =>
      return .phrase [.text ("java resource " ++ String.ofList (resourceName (c :: name)))]
    | _ => fail
  | "GT" =>
    let isSafe := (← next) = 'n'
    let lead := if isSafe then "non-transaction clone for " else "transaction clone for "
    return .phrase [.text lead, ← read .encoding]
  | _ =>
    set state
    expect "T"
    let this ← callOffset
    return .phrase [.text "\x7bvirtual override thunk(", this, .text ", ", ← read .encoding,
      .text ")\x7d"]

/-- A function with its types, a variable, or a special name. -/
def encodingRule (read : Reader) : Parser Node := do
  match ← attempt (read .name) with
  | some name =>
    match ← attempt (read .types) with
    | some types => return .function name types.parts
    | none => return .apart name
  | none => return .apart (← read .specialName)

/-- What each production stands for, given a reader of the parts within it. -/
def rule (read : Reader) : Production → Parser Node
  | .symbol => symbolRule read
  | .clone => cloneRule
  | .keyed => keyedRule read
  | .encoding => encodingRule read
  | .specialName => specialNameRule read
  | .name => nameRule read
  | .unscopedName => unscopedNameRule read
  | .templateName => templateNameRule read
  | .nestedName => nestedNameRule read
  | .scopes => scopesRule read
  | .scope current => scopeRule read current
  | .localName => localNameRule read
  | .unqualifiedName => unqualifiedNameRule read
  | .tags => do return .phrase (← many (read .tag))
  | .tag => tagRule read
  | .sourceName => sourceNameRule read
  | .identifier cs => identifierRule cs
  | .operatorName inExpression => operatorNameRule read inExpression
  | .operatorCode => operatorCodeRule
  | .structor => structorRule read
  | .closure => closureRule read
  | .signature => signatureRule read
  | .unnamedType => unnamedTypeRule
  | .substitution => substitutionRule read
  | .knownName => knownNameRule
  | .type => typeRule read
  | .types => typesRule read
  | .builtin => builtinRule read
  | .standardBuiltin => standardBuiltinRule
  | .parametricBuiltin => parametricBuiltinRule read
  | .classEnum => classEnumRule read
  | .functionType => functionTypeRule read
  | .exceptions => exceptionsRule read
  | .arrayType => arrayTypeRule read
  | .vectorType => vectorTypeRule read
  | .memberPointer => memberPointerRule read
  | .templateParam => templateParamRule
  | .templateTemplate => templateTemplateRule read
  | .decltype => decltypeRule read
  | .arguments => argumentsRule read
  | .argument => argumentRule read
  | .expression => expressionRule read
  | .literal => literalRule read
  | .functionParam => functionParamRule
  | .unresolvedName => unresolvedNameRule read
  | .unresolvedBase => unresolvedBaseRule read
  | .unresolvedType => unresolvedTypeRule read
  | .simpleName => do withArguments read (← read .sourceName)
  | .destructorName => destructorNameRule read
  | .memberName => memberNameRule read
  | .initializer => initializerRule read
  | .subobject => subobjectRule read

/-- Reads parts that are nested at most `n` deep. -/
def read : Nat → Reader
  | 0, _ => throw .tooDeep
  | n + 1, production => rule (read n) production

/-- How deep parts may be nested. -/
def depthLimit : Nat := 95

/-- Reads a whole symbol of the given bytes, with the table of what it refers to. -/
def read? (bytes : List Char) : Option (Node × Table) :=
  match read depthLimit .symbol ⟨bytes, #[], 0, false⟩ with
  | .ok symbol state => if state.rest.isEmpty then some (symbol, state.table) else none
  | .error .. => none

end Postmortem.Demangle.Itanium
