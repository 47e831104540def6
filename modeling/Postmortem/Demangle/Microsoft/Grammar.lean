import Postmortem.Demangle.Microsoft.Reader

/-!
# Reading a Microsoft C++ symbol: names and types

The rules contain each other. Each is written for given readers of the parts within it, and
`grammar` ties them together down to a depth that the symbol's length bounds.
-/
namespace Postmortem.Demangle.Microsoft

open Microsoft.Parser

/-- Readers for the parts that contain others. A type is read with the qualifiers before it. -/
structure Grammar where
  symbol : Parser Node
  name : Parser Node
  type : Qualifiers → Parser Node

/-- Special names with a code of one character. -/
def operator? : Char → Option Node
  | '0' => some .constructor
  | '1' => some .destructor
  | '2' => some (.text "operator new")
  | '3' => some (.text "operator delete")
  | '4' => some (.text "operator=")
  | '5' => some (.text "operator>>")
  | '6' => some (.text "operator<<")
  | '7' => some (.text "operator!")
  | '8' => some (.text "operator==")
  | '9' => some (.text "operator!=")
  | 'A' => some (.text "operator[]")
  | 'B' => some .conversion
  | 'C' => some (.text "operator->")
  | 'D' => some (.text "operator*")
  | 'E' => some (.text "operator++")
  | 'F' => some (.text "operator--")
  | 'G' => some (.text "operator-")
  | 'H' => some (.text "operator+")
  | 'I' => some (.text "operator&")
  | 'J' => some (.text "operator->*")
  | 'K' => some (.text "operator/")
  | 'L' => some (.text "operator%")
  | 'M' => some (.text "operator<")
  | 'N' => some (.text "operator<=")
  | 'O' => some (.text "operator>")
  | 'P' => some (.text "operator>=")
  | 'Q' => some (.text "operator,")
  | 'R' => some (.text "operator()")
  | 'S' => some (.text "operator~")
  | 'T' => some (.text "operator^")
  | 'U' => some (.text "operator|")
  | 'V' => some (.text "operator&&")
  | 'W' => some (.text "operator||")
  | 'X' => some (.text "operator*=")
  | 'Y' => some (.text "operator+=")
  | 'Z' => some (.text "operator-=")
  | _ => none

/-- The name of the guard of a local static variable. -/
def staticGuard : String := "`local static guard'"

/-- The name of the guard of a local static variable that threads share. -/
def threadGuard : String := "`local static thread guard'"

/-- The name of a string literal. -/
def stringLiteral : String := "`string'"

/-- Special names with a code of an underscore and a character. -/
def extendedOperator? : Char → Option String
  | '0' => some "operator/="
  | '1' => some "operator%="
  | '2' => some "operator>>="
  | '3' => some "operator<<="
  | '4' => some "operator&="
  | '5' => some "operator|="
  | '6' => some "operator^="
  | '7' => some "`vftable'"
  | '8' => some "`vbtable'"
  | '9' => some "`vcall'"
  | 'A' => some "`typeof'"
  | 'B' => some staticGuard
  | 'C' => some stringLiteral
  | 'D' => some "`vbase destructor'"
  | 'E' => some "`vector deleting destructor'"
  | 'F' => some "`default constructor closure'"
  | 'G' => some "`scalar deleting destructor'"
  | 'H' => some "`vector constructor iterator'"
  | 'I' => some "`vector destructor iterator'"
  | 'J' => some "`vector vbase constructor iterator'"
  | 'K' => some "`virtual displacement map'"
  | 'L' => some "`eh vector constructor iterator'"
  | 'M' => some "`eh vector destructor iterator'"
  | 'N' => some "`eh vector vbase constructor iterator'"
  | 'O' => some "`copy constructor closure'"
  | 'S' => some "`local vftable'"
  | 'T' => some "`local vftable constructor closure'"
  | 'U' => some "operator new[]"
  | 'V' => some "operator delete[]"
  | 'X' => some "`placement delete closure'"
  | 'Y' => some "`placement delete[] closure'"
  | _ => none

/-- A table of run-time type information. -/
def typeInformation (g : Grammar) : Parser Node := do
  match ← next with
  | '0' => return .noted (← g.type (← resultQualifiers)) " `RTTI Type Descriptor'"
  | '1' =>
    let a ← number
    let b ← number
    let c ← number
    let d ← number
    return .text s!"`RTTI Base Class Descriptor at ({a},{b},{c},{d})'"
  | '2' => return .text "`RTTI Base Class Array'"
  | '3' => return .text "`RTTI Class Hierarchy Descriptor'"
  | '4' => return .text "`RTTI Complete Object Locator'"
  | _ => fail

/-- A special name, after its question mark. -/
def specialName (g : Grammar) : Parser Node := do
  match ← next with
  | '_' =>
    match ← next with
    | 'R' => typeInformation g
    | '_' =>
      match ← next with
      | 'E' => return .text "`dynamic initializer'"
      | 'F' => return .text "`dynamic atexit destructor'"
      | 'J' => return .text threadGuard
      | 'K' => return .text ("operator \"\" " ++ (← word))
      | 'L' => return .text " co_await"
      | _ => fail
    | c =>
      match extendedOperator? c with
      | some s => return .text s
      | none => fail
  | c =>
    match operator? c with
    | some name => return name
    | none => fail

/-- A word as a component of a name. -/
def plainName : Parser Node := do
  let name := Node.text (← word)
  rememberName name
  return name

/-- At most `n` items of a list of types, each of which may be several, up to an at sign or the
mark of any further ones. -/
def typesUpTo (item : Parser (List Node)) : Nat → Parser (List Node)
  | 0 => fail
  | n + 1 => do
    if ← eat "@" then return []
    if ← eat "Z" then return [.text "..."]
    match (← peek?).bind digit? with
    | some d =>
      let _ ← next
      match (← get).types[d]? with
      | some type => return type :: (← typesUpTo item n)
      | none => fail
    | none =>
      let before := (← get).rest.length
      let types ← item
      if before - (← get).rest.length > 1 then types.forM rememberType
      return types ++ (← typesUpTo item n)

/-- A list of types. -/
def types (item : Parser (List Node)) : Parser (List Node) := do
  typesUpTo item ((← get).rest.length + 1)

/-- The parameters of a function, and the mark that it may throw anything. -/
def parameters (g : Grammar) : Parser (List Node) := do
  let list ←
    if ← eat "X" then pure [Node.basic "void" .none]
    else types do return [← g.type .none]
  expect "Z"
  return list

/-- A pointer to the function of a symbol. Of the symbol's type, how members of the class are
reached is passed over. -/
def functionAddress (g : Grammar) : Parser Node := do
  let name ← g.name
  let _ ← next
  let convention ← convention
  let result ← g.type (← resultQualifiers)
  return .memberPointer name convention (← parameters g) [] result

/-- An argument of a template. An empty pack is no argument. -/
def argument (g : Grammar) : Parser (List Node) := do
  if ← eat "$$V" <||> eat "$$$V" <||> eat "$$Z" <||> eat "$S" then return []
  if ← eat "$$Y" then return [← g.name]
  if ← eat "$0" then return [.text (toString (← number))]
  if ← eat "$1?" then return [← functionAddress g]
  if ← eat "$E" then return [← g.symbol]
  if ← eat "$D" then return [.text ("`template-parameter" ++ toString (← number) ++ "'")]
  if ← eat "$F" then
    let a ← number
    return [.text ("\x7b" ++ toString a ++ "," ++ toString (← number) ++ "\x7d")]
  return [← g.type .none]

/-- A template with its arguments, after its mark. References within it are its own. -/
def templateName (g : Grammar) : Parser Node := do
  let outside ← get
  set { outside with names := #[], types := #[] }
  let name ← if ← eat "?" then specialName g else plainName
  let arguments ← types (argument g)
  modify fun state => { outside with rest := state.rest }
  return .template name arguments

/-- Whether a character is a hexadecimal digit. -/
def isHexDigit (c : Char) : Bool :=
  c.isDigit || ('a' ≤ c && c ≤ 'f') || ('A' ≤ c && c ≤ 'F')

/-- A hexadecimal number up to an at sign. -/
def hexWord : Parser String := do
  let s ← word
  if s.toList.all isHexDigit then return s else fail

/-- A component of a name that others are within. -/
def scopeComponent (g : Grammar) : Parser Node := do
  if (← peek?).any Char.isDigit then return ← rememberedName
  if ← eat "?$" then
    let name ← templateName g
    rememberName name
    return name
  if ← eat "?A" then
    expect "0x"
    let _ ← hexWord
    let name := Node.text "`anonymous namespace'"
    rememberName name
    return name
  if ← eat "??" then
    modify fun state => { state with rest := '?' :: state.rest }
    return .quoted (← g.symbol)
  if ← eat "?" then return .text ("`" ++ toString (← number) ++ "'")
  plainName

/-- The innermost component of a name. -/
def firstComponent (g : Grammar) (remembers : Bool) : Parser Node := do
  if (← peek?).any Char.isDigit then return ← rememberedName
  if ← eat "?$" then
    let name ← templateName g
    if remembers then rememberName name
    return name
  if ← eat "?" then specialName g else plainName

/-- A name with all the names it is within. The name of a template function is not remembered. -/
def qualifiedName (g : Grammar) (isType : Bool) : Parser Node := do
  let first ← firstComponent g isType
  return .name (first :: (← list (scopeComponent g)))

/-- The types with a code of one letter. -/
def basic? : Char → Option String
  | 'C' => some "signed char"
  | 'D' => some "char"
  | 'E' => some "unsigned char"
  | 'F' => some "short"
  | 'G' => some "unsigned short"
  | 'H' => some "int"
  | 'I' => some "unsigned int"
  | 'J' => some "long"
  | 'K' => some "unsigned long"
  | 'M' => some "float"
  | 'N' => some "double"
  | 'O' => some "long double"
  | 'X' => some "void"
  | _ => none

/-- The types with a code of an underscore and a letter. -/
def extendedBasic? : Char → Option String
  | 'J' => some "int64_t"
  | 'K' => some "uint64_t"
  | 'N' => some "bool"
  | 'Q' => some "char8_t"
  | 'S' => some "char16_t"
  | 'U' => some "char32_t"
  | 'W' => some "wchar_t"
  | _ => none

/-- The rest of a function's type: convention, result and parameters. Only a member may be without
a result. -/
def functionTail (g : Grammar) (isMember : Bool) (lead : String) (trail : List String) :
    Parser Node := do
  let convention ← convention
  let qualifiers ← resultQualifiers
  let hasResult ← if isMember then (! ·) <$> eat "@" else pure true
  let result ← if hasResult then g.type qualifiers else pure .untyped
  return .function lead convention (← parameters g) trail result

/-- The reference to the object that a member function takes. -/
def reference? : Char → Option String
  | 'G' => some "&"
  | 'H' => some "&&"
  | _ => none

/-- The qualifiers of the object that a member function is called on, as words. -/
def objectQualifiers : Parser (List String) := do
  let _ ← eat "E"
  let _ ← eat "F"
  let reference ← nextWith? reference?
  let q := (← nextWith? qualifiers?).getD .none
  return q.words ++ reference.toList

/-- The type that a pointer or a reference leads to. -/
def pointed (g : Grammar) : Parser Node := do
  let _ ← eat "E"
  g.type (← storage)

/-- A pointer to a member function, after its mark. -/
def memberPointer (g : Grammar) : Parser Node := do
  let scope ← g.name
  let trail ← objectQualifiers
  let convention ← convention
  let result ← g.type (← resultQualifiers)
  return .memberPointer scope convention (← parameters g) trail result

/-- Further dimensions of an array, and its element. The qualifiers of the element are written for
each dimension. -/
def arrayUpTo (g : Grammar) : Nat → Parser (Node × Qualifiers)
  | 0 => do
    let q ←
      if ← eat "$$C" then
        match ← nextWith? qualifiers? with
        | some q => pure q
        | none => fail
      else pure .none
    return (← g.type .none, q)
  | n + 1 => do
    let length ← number
    let (element, q) ← arrayUpTo g n
    return (.array length element q, q)

/-- Dimensions and element of an array. -/
def array (g : Grammar) : Parser Node := do
  let count ← number
  if count < 1 || (← get).rest.length < count.toNat then fail
  return (← arrayUpTo g count.toNat).1

/-- Types with a code that starts with two dollar signs. -/
def extendedType (g : Grammar) (q : Qualifiers) : Parser Node := do
  match ← next with
  | 'Q' => return .pointer "&&" (← pointed g) q
  | 'A' =>
    if ← eat "6" then functionTail g false "" []
    else
      expect "8"
      expect "@@"
      functionTail g false "" (← objectQualifiers)
  | 'B' => g.type q
  | 'C' => g.type (← storage)
  | 'T' => return .basic "std::nullptr_t" .none
  | _ => fail

/-- A type after the qualifiers `q`. A pointer with a letter of its own for its qualifiers has only
these. -/
def typeRule (g : Grammar) (q : Qualifiers) : Parser Node := do
  if ← eat "W4" then return .named "enum " (← g.name) q
  if ← eat "P6" then return .pointer "*" (← functionTail g false "" []) q
  if ← eat "A6" then return .pointer "&" (← functionTail g false "" []) q
  if ← eat "P8" then return ← memberPointer g
  match ← next with
  | 'T' => return .named "union " (← g.name) q
  | 'U' => return .named "struct " (← g.name) q
  | 'V' => return .named "class " (← g.name) q
  | 'A' => return .pointer "&" (← pointed g) q
  | 'P' => return .pointer "*" (← pointed g) q
  | 'Q' => return .pointer "*" (← pointed g) ⟨true, false⟩
  | 'R' => return .pointer "*" (← pointed g) ⟨false, true⟩
  | 'S' => return .pointer "*" (← pointed g) ⟨true, true⟩
  | 'Y' => array g
  | '?' => return .text ("`template-parameter-" ++ toString (← number) ++ "'")
  | '_' =>
    match extendedBasic? (← next) with
    | some name => return .basic name q
    | none => fail
  | '$' =>
    expect "$"
    extendedType g q
  | c =>
    match basic? c with
    | some name => return .basic name q
    | none => fail

/-- How members of a class are reached, for the letters in groups of eight. -/
def accesses : List String := ["private: ", "protected: ", "public: "]

/-- What kind of member function a letter stands for: words in front, whether it is called on an
object, and whether it first adjusts it. -/
def memberKind? (c : Char) : Option (String × Bool × Bool) :=
  let n := c.toNat - 'A'.toNat
  if c < 'A' ∨ 'X' < c then none
  else
    (accesses[n / 8]?).map fun access =>
      match n % 8 / 2 with
      | 0 => (access, true, false)
      | 1 => (access ++ "static ", false, false)
      | 2 => (access ++ "virtual ", true, false)
      | _ => ("[thunk]: " ++ access ++ "virtual ", true, true)

/-- A variable, after the digit that tells its kind. -/
def variableType (g : Grammar) (lead : String) : Parser Node := do
  let type ← g.type .none
  return .stored lead type (← storage)

/-- A table of a class, after the digit that tells its kind. -/
def tableType (g : Grammar) (kind : TableKind) : Parser Node := do
  let q ← storage
  return .table kind (← list (scopeComponent g)) q

/-- The type of what a symbol names. -/
def symbolType (g : Grammar) : Parser Node := do
  match ← next with
  | '0' => variableType g "private: static "
  | '1' => variableType g "protected: static "
  | '2' => variableType g "public: static "
  | '3' | '4' => variableType g ""
  | '6' => tableType g .functions
  | '7' => tableType g .bases
  | '8' | '9' => return .untyped
  | 'Y' | 'Z' => functionTail g false "" []
  | '$' =>
    expect "B"
    let place ← number
    expect "A"
    return .tableCall place (← convention)
  | c =>
    let some (lead, hasObject, adjusts) := memberKind? c | fail
    if adjusts then
      let _ ← number
    functionTail g true lead (← if hasObject then objectQualifiers else pure [])

/-- The type of what a symbol names, where the name tells a part of it. -/
def typeOf (g : Grammar) (name : Node) : Parser Node := do
  let special := match name with
    | .name (.text s :: _) => s
    | _ => ""
  if special = stringLiteral || (← peek?).isNone then return .untyped
  if special = staticGuard || special = threadGuard then
    if ← eat "4IA" then return .untyped
    if ← eat "5" then return .guard (← number)
  symbolType g

/-- The name of something of a type. A conversion is named for its result. -/
def Node.converting (name type : Node) : Node :=
  match name, type with
  | .name (.conversion :: scopes), .function _ _ _ _ result =>
    .name (.conversionTo result :: scopes)
  | name, _ => name

/-- How many hexadecimal digits the digest of a long name has. -/
def digestLength : Nat := 32

/-- A symbol: a name after a question mark, and a type if anything follows. A long name may be
replaced by a digest of it. -/
def symbolRule (g : Grammar) : Parser Node := do
  expect "?"
  if ← eat "?@" then
    let digest ← hexWord
    if digest.length ≠ digestLength then fail
    return .text ("??@" ++ digest ++ "@")
  if ← eat "$TSS" then
    let number ← word
    let scopes ← list (scopeComponent g)
    expect "4HA"
    return .symbol (.threadSafe number scopes) .untyped
  let name ← qualifiedName g false
  let type ← typeOf g name
  return .symbol (name.converting type) type

/-- The readers of parts that are nested at most `n` deep. -/
def grammar : Nat → Grammar
  | 0 => ⟨fail, fail, fun _ => fail⟩
  | n + 1 =>
    let inner := grammar n
    { symbol := symbolRule inner
      name := qualifiedName inner true
      type := typeRule inner }

/-- Reads a symbol. What follows it is ignored. A part that is nested in another one is shorter, so
the length of the symbol bounds the depth. -/
def read? (cs : List Char) : Option Node :=
  ((grammar (cs.length + 1)).symbol ⟨cs, #[], #[]⟩).map (·.1)

end Postmortem.Demangle.Microsoft
