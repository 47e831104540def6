/-!
# The parts of an Itanium C++ symbol

A symbol is read into a tree of parts. Types, templates and the beginnings of nested names may be
referred to later in the symbol, so they stand in a table and the tree has the places in it.
Expressions and special names, which are printed from left to right, are phrases of their parts; a
type keeps its structure, because the parts of a type are printed around each other.
-/
namespace Postmortem.Demangle.Itanium

/-- The qualifiers of a type or of a member function. -/
structure Qualifiers where
  isConst : Bool
  isVolatile : Bool
  isRestrict : Bool
  deriving DecidableEq, Repr, Inhabited

namespace Qualifiers

def isEmpty (q : Qualifiers) : Bool := !q.isConst && !q.isVolatile && !q.isRestrict

/-- The qualifiers as words, in the order they are written in. -/
def words (q : Qualifiers) : List String :=
  (if q.isConst then ["const"] else []) ++ (if q.isVolatile then ["volatile"] else []) ++
    (if q.isRestrict then ["restrict"] else [])

end Qualifiers

/-- Which objects a member function takes. -/
structure MemberMarks where
  qualifiers : Qualifiers
  /-- The reference after the qualifiers. -/
  reference : Option String
  /-- The object is the first parameter. -/
  takesObject : Bool
  deriving DecidableEq, Repr, Inhabited

/-- The names of the standard library that have a code of their own. -/
inductive Known where
  | std
  | allocator
  | basicString
  | string
  | istream
  | ostream
  | iostream
  deriving DecidableEq, Repr

namespace Known

def ofCode? : Char → Option Known
  | 't' => some std
  | 'a' => some allocator
  | 'b' => some basicString
  | 's' => some string
  | 'i' => some istream
  | 'o' => some ostream
  | 'd' => some iostream
  | _ => none

/-- The whole name. -/
def text : Known → String
  | std => "std"
  | allocator => "std::allocator"
  | basicString => "std::basic_string"
  | string => "std::string"
  | istream => "std::basic_istream<char, std::char_traits<char> >"
  | ostream => "std::ostream"
  | iostream => "std::basic_iostream<char, std::char_traits<char> >"

/-- What a constructor of the class is called. -/
def leaf? : Known → Option String
  | std => none
  | allocator => some "allocator"
  | basicString => some "basic_string"
  | string => some "string"
  | istream => some "basic_istream"
  | ostream => some "ostream"
  | iostream => some "basic_iostream"

end Known

/-- A part of a symbol. A type that goes around others knows its own place in the table, `self`,
which tells it from other types that look the same. -/
inductive Node where
  /-- Text that is printed as it stands. -/
  | text (s : String)
  /-- The parts one after the other. -/
  | phrase (parts : List Node)
  /-- A part that consists of another one. -/
  | only (part : Node)
  /-- The part at a place of the table. -/
  | entry (index : Nat)
  | known (name : Known)
  /-- A name of the program. -/
  | source (name : String)
  /-- A name that is within no other one, with the tags that tell variants of a binary interface
  apart. -/
  | unqualified (name tags : Node)
  | operator (spelling : String)
  /-- The operator that converts to a type. -/
  | conversion (type : Node)
  | literalOperator (name : Node)
  /-- An operator that is not of the language, with the number of its operands. -/
  | foreignOperator (arity : Nat) (name : Node)
  /-- A constructor, and the class it inherits it from if that is given. -/
  | constructor (inherited : Option Node)
  | destructor
  | closure (signature : Node) (number : Nat)
  /-- The parameters of a closure. -/
  | signature (parameters : List Node)
  /-- A type without a name. -/
  | unnamed (number : Nat)
  /-- A name at the outermost level, or in the standard library's namespace. -/
  | unscoped (isStandard : Bool) (name : Node)
  /-- A name within another one. -/
  | within (scope name : Node)
  /-- A data member within whose initializer further names are. -/
  | member (scope name : Node)
  /-- A name within others, with template arguments. -/
  | template (scope arguments : Node)
  /-- A whole nested name. -/
  | nested (marks : MemberMarks) (parts : List Node)
  /-- A name at the outermost level with template arguments. -/
  | unscopedTemplate (name arguments : Node)
  /-- Template arguments, and the number that tells them from others of the symbol. -/
  | arguments (id : Nat) (list : List Node)
  | pack (list : List Node)
  /-- An entity in the body of a function. -/
  | localName (function entity : Node)
  /-- An entity in the default argument of a function. -/
  | defaultArgument (function entity : Node)
  /-- A function with its types; the first one is the result for some names. -/
  | function (name : Node) (types : List Node)
  /-- A part to which nothing around it applies. -/
  | apart (part : Node)
  /-- What a symbol stands for, and the marks of the copies that were made of it. -/
  | symbol (encoding : Node) (clones : List Node)
  /-- What runs at the start or the end for the sake of another symbol. -/
  | keyed (lead : String) (symbol : Node)
  /-- An entity with a symbol of its own. -/
  | external (symbol : Node)
  | templateParam (index : Nat)
  /-- A parameter of the function that an expression belongs to. -/
  | parameter (text : String)
  | builtin (name : String)
  | qualified (self : Nat) (qualifiers : Qualifiers) (type : Node)
  | pointer (self : Nat) (type : Node)
  | lvalueRef (self : Nat) (type : Node)
  | rvalueRef (self : Nat) (type : Node)
  /-- A type with a foreign mark, which may have template arguments. -/
  | marked (type name : Node) (arguments : Option Node)
  | packExpansion (type : Node)
  | functionType (self : Nat) (qualifiers : Qualifiers) (reference : Option String)
    (exceptions : Option Node) (types : Node)
  /-- The result and the parameters of the function type at a place of the table. -/
  | types (self : Nat) (result : Node) (parameters : List Node)
  | array (self : Nat) (dimension element : Node)
  | vector (self : Nat) (dimension element : Node)
  | memberPointer (self : Nat) (scope member : Node)
  /-- A template that is itself a parameter, with arguments. -/
  | templateTemplate (param arguments : Node)
  deriving Inhabited

/-- The parts that may be referred to, by number. -/
abbrev Table := Array Node

namespace Node

/-- The parts of a phrase. -/
def parts : Node → List Node
  | phrase parts => parts
  | _ => []

/-- What a node stands for: itself, or the part at its place. -/
def resolve (table : Table) : Node → Node
  | entry index => table.getD index (entry index)
  | node => node

/-- The last component of a name, after which constructors and destructors are called. It is looked
for through at most `n` parts. -/
def leafWithin (table : Table) : Nat → Node → Option Node
  | 0, _ => none
  | n + 1, node =>
    match node.resolve table with
    | only part => leafWithin table n part
    | known name => if name.leaf?.isSome then some (known name) else none
    | source name => some (source name)
    | unqualified name _ => leafWithin table n name
    | closure parameters number => some (closure parameters number)
    | unnamed number => some (unnamed number)
    | unscoped _ name => leafWithin table n name
    | within scope name | member scope name =>
      (leafWithin table n name).or (leafWithin table n scope)
    | template scope _ => leafWithin table n scope
    | nested _ parts => parts.reverse.findSome? (leafWithin table n)
    | unscopedTemplate name _ => leafWithin table n name
    | localName _ entity | defaultArgument _ entity => leafWithin table n entity
    | phrase [text _, name] => leafWithin table n name
    | _ => none

/-- The last component of a name, after which constructors and destructors are called. -/
def leaf? (table : Table) (node : Node) : Option Node :=
  leafWithin table (8 * (table.size + 1)) node

/-- The template arguments at the end of a name. -/
def arguments? (table : Table) : Node → Option Node
  | only part => arguments? table part
  | unscopedTemplate _ list => some list
  | nested _ [scope] =>
    match scope.resolve table with
    | template _ list => some list
    | _ => none
  | localName _ entity | defaultArgument _ entity => arguments? table entity
  | _ => none

/-- The template arguments of a type. -/
def typeArguments? (table : Table) (node : Node) : Option Node :=
  match node.resolve table with
  | marked _ _ list => list
  | templateTemplate _ list => some list
  | _ => none

/-- Whether a name is that of a constructor, a destructor or a conversion, looked for through at
most `n` parts. -/
def hasNoResultWithin (table : Table) : Nat → Node → Bool
  | 0, _ => false
  | n + 1, node =>
    match node.resolve table with
    | only part => hasNoResultWithin table n part
    | unscoped _ name | within _ name | template name _ => hasNoResultWithin table n name
    | nested _ parts => parts.getLast?.any (hasNoResultWithin table n)
    | unqualified (constructor _) _ | unqualified destructor _
    | unqualified (conversion _) _ => true
    | _ => false

/-- Whether a name is that of a constructor, a destructor or a conversion. The types of such a
function do not start with a result. -/
def hasNoResult (table : Table) (node : Node) : Bool :=
  hasNoResultWithin table (8 * (table.size + 1)) node

/-- Whether a name is that of an operator. -/
def isOperator : Node → Bool
  | operator _ | conversion _ | literalOperator _ | foreignOperator .. => true
  | _ => false

end Node

end Postmortem.Demangle.Itanium
