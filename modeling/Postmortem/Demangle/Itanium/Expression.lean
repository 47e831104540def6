import Postmortem.Demangle.Itanium.Name

/-!
# Reading an Itanium C++ symbol: expressions

An expression becomes a phrase. Operands stand in parentheses unless they are parameters of a
function or entities with a symbol of their own.
-/
namespace Postmortem.Demangle.Itanium

open Itanium.Parser

/-- The text that bytes encode. -/
def decoded (cs : List Char) : String :=
  (String.fromUTF8? (cs.map fun c => UInt8.ofNat c.toNat).toByteArray).getD ""

/-- The spelling of a literal: a minus sign is coded as `n`. -/
def literalDigits : List Char → String
  | 'n' :: digits => "-" ++ decoded digits
  | digits => decoded digits

/-- A floating-point literal: its bits in brackets. -/
def literalBits : List Char → String
  | 'n' :: digits => "-[" ++ decoded digits ++ "]"
  | digits => "[" ++ decoded digits ++ "]"

/-- A constant of a type. The type is written before it unless the constant tells it. -/
def literalOf (type : Node) (digits : List Char) : Node :=
  let cast (text : String) : Node := .phrase [.text "(", type, .text (")" ++ text)]
  match type with
  | .builtin "bool" =>
    match digits with
    | ['0'] => .phrase [.text "false"]
    | ['1'] => .phrase [.text "true"]
    | _ => cast (literalDigits digits)
  | .builtin "std::nullptr_t" => .phrase [.text "nullptr"]
  | .builtin "float" | .builtin "double" => cast (literalBits digits)
  | .builtin "int" => .phrase [.text (literalDigits digits)]
  | _ => cast (literalDigits digits)

/-- A constant, or an entity with a symbol of its own. -/
def literalRule (read : Reader) : Parser Node := do
  expect "L"
  match ← attempt (read .type) with
  | some type =>
    let digits ← run (· ≠ 'E')
    expect "E"
    return literalOf type digits
  | none =>
    let symbol ← read .symbol
    expect "E"
    return .external symbol

/-- An operand of an expression. -/
def operand (e : Node) : List Node :=
  match e with
  | .only (.parameter _) | .only (.external _) => [e]
  | _ => [.text "(", e, .text ")"]

/-- Parts with commas between them. -/
def commas (parts : List Node) : List Node := parts.intersperse (.text ", ")

/-- Words with a type or an expression in parentheses after them. -/
def wrappers : List (String × Production × String) :=
  [("st", .type, "sizeof ("), ("sz", .expression, "sizeof ("), ("at", .type, "alignof ("),
   ("az", .expression, "alignof ("), ("ti", .type, "typeid ("), ("te", .expression, "typeid ("),
   ("nx", .expression, "noexcept (")]

/-- The casts that have a name. -/
def casts : List (String × String) :=
  [("dc", "dynamic_cast<"), ("sc", "static_cast<"), ("cc", "const_cast<"),
   ("rc", "reinterpret_cast<")]

/-- The rest of an expression after a code that no operator has, or that an expression gives a
meaning of its own. -/
def codedExpression? (read : Reader) (code : String) : Option (Parser Node) :=
  if let some (production, word) := wrappers.lookup code then
    some do return .phrase [.text word, ← read production, .text ")"]
  else if let some word := casts.lookup code then some do
    let type ← read .type
    return .phrase [.text word, type, .text ">(", ← read .expression, .text ")"]
  else match code with
  | "cl" => some do
    let function ← read .expression
    let operands ← manyToEnd (read .expression)
    return .phrase (operand function ++ [.text "("] ++ commas operands ++ [.text ")"])
  | "cv" => some do
    let type ← read .type
    if ← eat "_" then
      let operands ← manyToEnd (read .expression)
      return .phrase ([type, .text "("] ++ commas operands ++ [.text ")"])
    return .phrase ([.text "(", type, .text ")"] ++ operand (← read .expression))
  | "tl" => some do
    let type ← read .type
    let operands ← manyToEnd (read .expression)
    return .phrase ([type, .text "\x7b"] ++ commas operands ++ [.text "\x7d"])
  | "il" => some do
    let e ← read .expression
    expect "E"
    return .phrase [.text "\x7b", e, .text "\x7d"]
  | "so" => some do return .only (← read .subobject)
  | "dt" => some do
    let object ← read .expression
    return .phrase (operand object ++ [.text ".", ← read .memberName])
  | "pt" => some do
    let object ← read .expression
    return .phrase (operand object ++ [.text "->", ← read .memberName])
  | "ds" => some do
    let object ← read .expression
    return .phrase [object, .text ".*", ← read .expression]
  | "sZ" => some do
    let pack ←
      match ← attempt (read .templateParam) with
      | some param => pure param
      | none => read .functionParam
    return .phrase [.text "sizeof...(", pack, .text ")"]
  | "sP" => some do
    let list ← manyToEnd (read .argument)
    return .phrase ([.text "sizeof...("] ++ commas list ++ [.text ")"])
  | "sp" => some do return .phrase (operand (← read .expression) ++ [.text "..."])
  | "tw" => some do return .phrase [.text "throw ", ← read .expression]
  | "tr" => some do return .phrase [.text "throw"]
  | _ => none

/-- An expression that makes or deletes objects, with what is written before it. -/
def allocation (read : Reader) (lead : String) : Parser Node := do
  match String.ofList (← take 2) with
  | "nw" => creation "new ("
  | "na" => creation "new[] ("
  | "dl" => return .phrase [.text (lead ++ "delete "), ← read .expression]
  | "da" => return .phrase [.text (lead ++ "delete[] "), ← read .expression]
  | _ => fail
where
  creation (word : String) : Parser Node := do
    let placement ← many (read .expression)
    expect "_"
    let type ← read .type
    let created := [.text (lead ++ word)] ++ commas placement ++ [.text ") ", type]
    if ← eat "E" then return .phrase created
    return .phrase (created ++ [← read .initializer])

/-- The values that a new object starts with. -/
def initializerRule (read : Reader) : Parser Node := do
  expect "pi"
  return .phrase ([.text "("] ++ commas (← manyToEnd (read .expression)) ++ [.text ")"])

/-- A part of an object, by its place in it. -/
def subobjectRule (read : Reader) : Parser Node := do
  let type ← read .type
  let object ← read .expression
  let offset := (← attempt signed).getD 0
  expect "E"
  return .phrase [object, .text ".<", type, .text (" at offset " ++ toString offset ++ ">")]

/-- An operator with its operands. The two steps by one are written after the operand, an index in
its brackets, and a choice around its question mark. -/
def operatorPhrase? (code : String) (operator : Node) : List Node → Option (List Node)
  | [a] =>
    if code = "pp" || code = "mm" then some (operand a ++ [operator])
    else some ([operator] ++ operand a)
  | [a, b] =>
    if code = "ix" then some (operand a ++ [.text "["] ++ operand b ++ [.text "]"])
    else
      let both := operand a ++ [operator] ++ operand b
      some (if code = "gt" then [.text "("] ++ both ++ [.text ")"] else both)
  | [a, b, c] =>
    if code = "qu" then some (operand a ++ [.text "?"] ++ operand b ++ [.text " : "] ++ operand c)
    else some ([operator, .text "("] ++ commas [a, b, c] ++ [.text ")"])
  | _ => none

/-- `n` results of `p`. -/
def exactly {α : Type} (p : Parser α) : Nat → Parser (List α)
  | 0 => return []
  | n + 1 => do return (← p) :: (← exactly p n)

/-- An operator with its operands. -/
def operatorExpression (read : Reader) : Parser Node := do
  let code := String.ofList ((← get).rest.take 2)
  let operator ← read (.operatorName true)
  let count :=
    match operator with
    | .operator _ => (operandCount? code).getD 0
    | .foreignOperator arity _ => arity
    | _ => 1
  if count = 0 || 3 < count then fail
  match operatorPhrase? code operator (← exactly (read .expression) count) with
  | some parts => return .phrase parts
  | none => fail

def expressionRule (read : Reader) : Parser Node := do
  if ← eat "pp_" then return .phrase [.text "++", ← read .expression]
  if ← eat "mm_" then return .phrase [.text "--", ← read .expression]
  let code := String.ofList ((← get).rest.take 2)
  if let some rest := codedExpression? read code then
    expect code
    return ← rest
  if let some e ← attempt (do expect "gs"; allocation read "::") then return e
  if let some e ← attempt (allocation read "") then return e
  for production in [Production.templateParam, .functionParam, .unresolvedName, .literal] do
    if let some e ← attempt (read production) then return .only e
  operatorExpression read

/-- A parameter of the function that an expression belongs to, or the object it is called on. -/
def functionParamRule : Parser Node := do
  expect "f"
  unless ← eat "p" do
    expect "L"
    let _ ← number 10
    expect "p"
  let _ ← qualifiers
  if ← eat "T" then return .parameter "this"
  return .parameter ("\x7bparm#" ++ toString ((← sequenceNumber) + 1) ++ "\x7d")

/-- A name with arguments after it if there are any. -/
def withArguments (read : Reader) (name : Node) : Parser Node := do
  match ← attempt (read .arguments) with
  | some arguments => return .phrase [name, arguments]
  | none => return .phrase [name]

/-- A name within an object. -/
def memberNameRule (read : Reader) : Parser Node := do
  let name := .only (.unscoped false (← read .unqualifiedName))
  match ← attempt (read .arguments) with
  | some arguments => return .phrase [.text "(", .unscopedTemplate name arguments, .text ")"]
  | none => return .only name

/-- The last part of a name that is only resolved later. -/
def unresolvedBaseRule (read : Reader) : Parser Node := do
  if let some name ← attempt (read .simpleName) then return .only name
  if ← eat "on" then return ← withArguments read (← read (.operatorName false))
  expect "dn"
  return .only (← read .destructorName)

/-- The name of the destructor of a type or of a class. -/
def destructorNameRule (read : Reader) : Parser Node := do
  match ← attempt (read .unresolvedType) with
  | some type => return .phrase [.text "~", type]
  | none => return .phrase [.text "~", ← read .simpleName]

/-- A type that a name is resolved within. -/
def unresolvedTypeRule (read : Reader) : Parser Node := do
  if let some param ← attempt (read .templateParam) then
    return ← record (← withArguments read param)
  if let some type ← attempt (read .decltype) then return ← record (.only type)
  read .substitution

/-- A name that is only resolved later, perhaps within a type or within other names. -/
def unresolvedNameRule (read : Reader) : Parser Node := do
  let isGlobal ← eat "gs"
  let lead : List Node := if isGlobal then [.text "::"] else []
  if let some base ← attempt (read .unresolvedBase) then return .phrase (lead ++ [base])
  expect "sr"
  let ofLevels (scope : List Node) : Parser Node := do
    let levels ← many1 (read .simpleName)
    expect "E"
    let base ← read .unresolvedBase
    return .phrase (lead ++ (scope ++ levels ++ [base]).intersperse (.text "::"))
  if isGlobal then return ← ofLevels []
  if ← eat "N" then return ← ofLevels [← read .unresolvedType]
  match ← attempt (read .unresolvedType) with
  | some type => return .phrase [type, .text "::", ← read .unresolvedBase]
  | none => ofLevels []

end Postmortem.Demangle.Itanium
