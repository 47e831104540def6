import Postmortem.Demangle.Microsoft.Grammar
import Postmortem.Demangle.Style

/-!
# Printing a Microsoft C++ symbol

A type has a part in front of the name it declares and a part behind it. Words are kept apart by a
blank after a letter and after the marks of pointers and template arguments.
-/
namespace Postmortem.Demangle.Microsoft

/-- Whether a word after `c` needs a blank. -/
def needsBlank (c : Char) : Bool := c.isAlpha || c = '*' || c = '&' || c = '>'

/-- Adds a blank if a word may not follow directly. -/
def spaced (o : String) : String := if o.back?.any needsBlank then o ++ " " else o

/-- Adds qualifiers. -/
def withQualifiers (o : String) (q : Qualifiers) : String :=
  q.words.foldl (fun o word => spaced o ++ word) o

/-- Adds words, each after a blank. -/
def withTrail (o : String) (words : List String) : String :=
  words.foldl (fun o word => o ++ " " ++ word) o

/-- Whether a type declares its name in parentheses. -/
def Node.declaresInside : Node → Bool
  | .pointer _ target _ => target.bindsTighter
  | .memberPointer .. => true
  | .stored _ type _ => declaresInside type
  | _ => false

/-- Adds what comes before the name that a type declares. -/
def beforeName (type : Node) (o : String) : String :=
  if type.declaresInside && o.back?.any fun c => c = '*' || c = '&' then o else spaced o

mutual

/-- Adds what stands in front of the name that a type declares. `isTarget` tells that a pointer to
the type follows, which is set in parentheses after a function or an array. -/
def front (style : Style) (isTarget : Bool) : Node → String → String
  | .text s, o => o ++ s
  | .noted type note, o => behind style type (front style false type o) ++ note
  | .template name list, o =>
    let o := separated style list (front style false name o ++ "<")
    (if o.back? = some '>' then o ++ " " else o) ++ ">"
  | .constructor, o => o ++ "ctor"
  | .destructor, o => o ++ "dtor"
  | .conversion, o => o ++ "operatorcast"
  | .conversionTo type, o => behind style type (front style false type (o ++ "operator "))
  | .quoted symbol, o => front style false symbol (o ++ "`") ++ "'"
  | .name components, o => qualified style components o
  | .threadSafe number scopes, o => qualified style scopes (o ++ "TSS" ++ number)
  | .symbol name type, o =>
    match style with
    | .nameOnly => front style false name o
    | .complete =>
      behind style type (front style false name (beforeName type (front style false type o)))
  | .untyped, o | .guard _, o => o
  | .basic name q, o => withQualifiers (o ++ name) q
  | .named word name q, o => withQualifiers (front style false name (o ++ word)) q
  | .pointer mark target q, o => withQualifiers (spaced (front style true target o) ++ mark) q
  | .array _ element q, o =>
    let o := withQualifiers (front style false element o) q
    if isTarget then spaced o ++ "(" else o
  | .function lead convention _ _ result, o =>
    spaced (front style false result (o ++ lead)) ++ (if isTarget then "(" else "") ++ convention
  | .memberPointer scope convention _ _ result, o =>
    front style false scope (spaced (spaced (front style false result o) ++ "(" ++ convention)) ++
      "::*"
  | .stored lead type q, o => withQualifiers (front style false type (o ++ lead)) q
  | .table _ _ q, o => withQualifiers o q
  | .tableCall _ convention, o => o ++ "[thunk]: " ++ convention

/-- Adds what stands behind the name that a type declares. What an rvalue reference leads to has
nothing there. -/
def behind (style : Style) : Node → String → String
  | .function _ _ parameters trail result, o =>
    withTrail (behind style result (separated style parameters (o ++ "(") ++ ")")) trail
  | .memberPointer _ _ parameters trail result, o =>
    withTrail (behind style result (separated style parameters (o ++ ")(") ++ ")")) trail
  | .pointer mark target _, o =>
    if mark = "&&" then o
    else behind style target (if target.bindsTighter then o ++ ")" else o)
  | .array length element _, o => behind style element (o ++ "[" ++ toString length ++ "]")
  | .stored _ type _, o => behind style type o
  | .table kind base _, o =>
    if kind = .functions && base.isEmpty then o
    else qualified style base (o ++ "\x7bfor `") ++ "'\x7d"
  | .tableCall place _, o => o ++ "\x7b" ++ toString place ++ ",\x7bflat\x7d\x7d"
  | .guard number, o => o ++ "\x7b" ++ toString number ++ "\x7d"
  | _, o => o

/-- Adds types with commas between them. -/
def separated (style : Style) : List Node → String → String
  | [], o => o
  | [type], o => behind style type (front style false type o)
  | type :: rest, o => separated style rest (behind style type (front style false type o) ++ ",")

/-- Adds the components of a name, the outermost first. A constructor is called like the class it
is within. -/
def qualified (style : Style) : List Node → String → String
  | [], o => o
  | [component], o => front style false component o
  | .constructor :: scope :: scopes, o =>
    front style false scope (qualified style (scope :: scopes) o ++ "::")
  | .destructor :: scope :: scopes, o =>
    front style false scope (qualified style (scope :: scopes) o ++ "::~")
  | component :: scope :: scopes, o =>
    front style false component (qualified style (scope :: scopes) o ++ "::")

end

/-- The readable name of a symbol. -/
def demangle? (style : Style) (symbol : String) : Option String :=
  (read? symbol.toList).map fun root => front style false root ""

end Postmortem.Demangle.Microsoft
