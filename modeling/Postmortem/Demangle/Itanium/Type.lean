import Postmortem.Demangle.Itanium.Reader

/-!
# Reading an Itanium C++ symbol: types and template arguments
-/
namespace Postmortem.Demangle.Itanium

open Itanium.Parser

/-- The types of the language that have a code. -/
def standardBuiltins : List (String × String) :=
  [("v", "void"), ("w", "wchar_t"), ("b", "bool"), ("c", "char"), ("a", "signed char"),
   ("h", "unsigned char"), ("s", "short"), ("t", "unsigned short"), ("i", "int"),
   ("j", "unsigned int"), ("l", "long"), ("m", "unsigned long"), ("x", "long long"),
   ("y", "unsigned long long"), ("n", "__int128"), ("o", "unsigned __int128"), ("f", "float"),
   ("d", "double"), ("e", "long double"), ("g", "__float128"), ("z", "..."),
   ("Dd", "decimal64"), ("De", "decimal128"), ("Df", "decimal32"), ("Dh", "half"),
   ("DF16b", "std::bfloat16_t"), ("Di", "char32_t"), ("Ds", "char16_t"), ("Du", "char8_t"),
   ("Da", "auto"), ("Dc", "decltype(auto)"), ("Dn", "std::nullptr_t")]

/-- The integers that a fixed-point type is like. -/
def fixedPointSizes : List (String × String) :=
  [("s", "short "), ("t", "unsigned short "), ("i", ""), ("j", "unsigned "), ("l", "long "),
   ("m", "unsigned long ")]

/-- The fixed-point types. -/
def fixedPointTypes : List (String × String) :=
  [("", ""), ("DS", "_Sat ")].flatMap fun (mark, lead) =>
    [("DA", "_Accum"), ("DR", "_Fract")].flatMap fun (code, name) =>
      fixedPointSizes.map fun (size, word) => (mark ++ code ++ size, lead ++ word ++ name)

/-- The first entry whose code comes next. -/
def eatCode? : List (String × String) → Parser (Option String)
  | [] => return none
  | (code, name) :: codes => do
    if ← eat code then return some name else eatCode? codes

/-- A type of the language without parts. -/
def standardBuiltinRule : Parser Node := do
  match ← eatCode? (standardBuiltins ++ fixedPointTypes) with
  | some name => return .builtin name
  | none => fail

/-- A width in bits. -/
def width : Parser String := do
  let bits ← number 10
  if bits < UInt16.size then return toString bits else fail

/-- A floating-point or integer type of a given width. -/
def parametricBuiltinRule (read : Reader) : Parser Node := do
  expect "D"
  if ← eat "F" then
    let bits ← width
    let isExtended ← eat "x"
    unless isExtended do expect "_"
    return .phrase [.text ("_Float" ++ bits ++ if isExtended then "x" else "")]
  let lead ←
    if ← eat "B" then pure "signed _BitInt("
    else do expect "U"; pure "unsigned _BitInt("
  match ← attempt (read .expression) with
  | some bits => return .phrase [.text lead, bits, .text ")"]
  | none =>
    let bits ← width
    expect "_"
    return .phrase [.text (lead ++ bits ++ ")")]

/-- A type without parts, of the language or foreign. -/
def builtinRule (read : Reader) : Parser Node := do
  if let some type ← attempt (read .standardBuiltin) then return type
  if let some type ← attempt (read .parametricBuiltin) then return .only type
  expect "u"
  return .only (← read .sourceName)

/-- A class or enumeration, perhaps with the word for what it is. -/
def classEnumRule (read : Reader) : Parser Node := do
  if let some name ← attempt (read .name) then return .only name
  expect "T"
  let word ←
    if ← eat "s" then pure "class "
    else if ← eat "u" then pure "union "
    else do expect "e"; pure "enum "
  return .phrase [.text word, ← read .name]

/-- What a function may throw. -/
def exceptionsRule (read : Reader) : Parser Node := do
  if ← eat "Do" then return .phrase [.text "noexcept"]
  expect "DO"
  let condition ← read .expression
  expect "E"
  return .phrase [.text "noexcept(", condition, .text ")"]

/-- The types of a function. -/
def typesRule (read : Reader) : Parser Node := do return .phrase (← many1 (read .type))

/-- The type of a function. -/
def functionTypeRule (read : Reader) : Parser Node := do
  let qualifiers ← qualifiers
  let exceptions ← attempt (read .exceptions)
  let _ ← eat "Dx"
  expect "F"
  let _ ← eat "Y"
  match (← read .types).parts with
  | [] => fail
  | result :: parameters =>
    let reference ← reference?
    expect "E"
    let self := (← get).table.size
    return .functionType self qualifiers reference exceptions (.types self result parameters)

/-- The type of an array: its dimension is a number, an expression, or missing. -/
def arrayTypeRule (read : Reader) : Parser Node := do
  expect "A"
  let dimension : Node ←
    match ← number? 10 with
    | some n => pure (.text (toString n))
    | none => do pure ((← attempt (read .expression)).getD (.text ""))
  expect "_"
  let element ← read .type
  return .array (← get).table.size dimension element

/-- The type of a vector: its dimension is a number or an expression. -/
def vectorTypeRule (read : Reader) : Parser Node := do
  expect "Dv"
  let dimension : Node ←
    match ← number? 10 with
    | some n => pure (.text (toString n))
    | none => read .expression
  expect "_"
  let element ← read .type
  return .vector (← get).table.size dimension element

/-- The type of a pointer to a member. -/
def memberPointerRule (read : Reader) : Parser Node := do
  expect "M"
  let scope ← read .type
  let member ← read .type
  return .memberPointer (← get).table.size scope member

/-- A parameter of a template. -/
def templateParamRule : Parser Node := do
  expect "T"
  return .templateParam (← sequenceNumber)

/-- A template that is itself a parameter, or was recorded. -/
def templateTemplateRule (read : Reader) : Parser Node := do
  if let some template ← attempt (read .substitution) then return template
  record (.only (← read .templateParam))

/-- The type of an expression. -/
def decltypeRule (read : Reader) : Parser Node := do
  expect "D"
  unless ← eat "t" <||> eat "T" do fail
  let e ← read .expression
  expect "E"
  return .phrase [.text "decltype (", e, .text ")"]

/-- Whether the template parameter before is a type without the arguments that come next. In the
type that an operator converts to, it has them only if more arguments follow. -/
def standsAlone (read : Reader) : Parser Bool := do
  if (← peek?) ≠ some 'I' then return true
  let state ← get
  if !state.converts then return false
  let arguments ← attempt (read .arguments)
  let following ← peek?
  set state
  return arguments.isSome && following ≠ some 'I'

/-- A type that is marked with a letter for what goes around it, or with its qualifiers. -/
def surroundedType (read : Reader) : Parser Node := do
  let qualifiers ← qualifiers
  if !qualifiers.isEmpty then
    let type ← read .type
    return ← recordAs fun self => .qualified self qualifiers type
  if ← eat "P" then
    let type ← read .type
    return ← recordAs fun self => .pointer self type
  if ← eat "R" then
    let type ← read .type
    return ← recordAs fun self => .lvalueRef self type
  if ← eat "O" then
    let type ← read .type
    return ← recordAs fun self => .rvalueRef self type
  if ← eat "C" then return ← record (.phrase [← read .type, .text " complex"])
  if ← eat "G" then return ← record (.phrase [← read .type, .text " imaginary"])
  expect "Dp"
  record (.packExpansion (← read .type))

/-- Whether a foreign mark comes next, and not a closure. -/
def isMarked : Parser Bool := do
  match (← get).rest with
  | 'U' :: 'l' :: _ => return false
  | 'U' :: _ => return true
  | _ => return false

/-- A type with a foreign mark. -/
def markedType (read : Reader) : Parser Node := do
  expect "U"
  let name ← read .sourceName
  let arguments ← attempt (read .arguments)
  record (.marked (← read .type) name arguments)

/-- A type. What begins like several kinds of type is of the first kind that it can be read as. -/
def typeRule (read : Reader) : Parser Node := do
  if let some type ← attempt (read .builtin) then return type
  if ← isMarked then return ← markedType read
  if let some type ← attempt (read .classEnum) then return ← record (.only type)
  let start ← get
  if let some type ← attempt (read .substitution) then
    if (← peek?) ≠ some 'I' then return type
    set start
  for production in [Production.functionType, .arrayType, .vectorType, .memberPointer] do
    if let some type ← attempt (read production) then return ← record (.only type)
  let start ← get
  if let some param ← attempt (read .templateParam) then
    if ← standsAlone read then return ← record (.only param)
    set start
  if let some template ← attempt (read .templateTemplate) then
    return ← record (.templateTemplate template (← read .arguments))
  if let some type ← attempt (read .decltype) then return ← record (.only type)
  surroundedType read

/-- The arguments of a template. -/
def argumentsRule (read : Reader) : Parser Node := do
  expect "I"
  let list ← many1 (read .argument)
  expect "E"
  return .arguments (← freshList) list

/-- An argument of a template. -/
def argumentRule (read : Reader) : Parser Node := do
  if ← eat "X" then
    let e ← read .expression
    expect "E"
    return .only e
  if let some literal ← attempt (read .literal) then return .only literal
  if let some type ← attempt (read .type) then return .only type
  unless ← eat "J" <||> eat "I" do fail
  return .pack (← manyToEnd (read .argument))

end Postmortem.Demangle.Itanium
