/-!
# The parts of a Microsoft C++ symbol

A symbol is a name and perhaps the type of what it names. What a reference back stands for is put
where the reference is, so two parts are the same if they are built the same.
-/
namespace Postmortem.Demangle.Microsoft

/-- The qualifiers of a type or of a member function. -/
structure Qualifiers where
  isConst : Bool
  isVolatile : Bool
  deriving DecidableEq, Repr, Inhabited

namespace Qualifiers

def none : Qualifiers := ⟨false, false⟩

/-- The qualifiers as words. -/
def words (q : Qualifiers) : List String :=
  (if q.isConst then ["const"] else []) ++ (if q.isVolatile then ["volatile"] else [])

end Qualifiers

/-- Tables of a class. -/
inductive TableKind where
  | functions
  | bases
  deriving DecidableEq, Repr

/-- A part of a symbol: a component of a name, a type, or a whole symbol. -/
inductive Node where
  /-- Text that is printed as it stands. -/
  | text (s : String)
  /-- A name with text after it. -/
  | noted (type : Node) (note : String)
  | template (name : Node) (arguments : List Node)
  | constructor
  | destructor
  /-- The operator that converts, of which the type is not known. -/
  | conversion
  /-- The operator that converts to a type. -/
  | conversionTo (type : Node)
  /-- A symbol that names are within. -/
  | quoted (symbol : Node)
  /-- The components of a name, the innermost first. -/
  | name (components : List Node)
  /-- The mark of a variable's thread-safe initialization, and the names it is within. -/
  | threadSafe (number : String) (scopes : List Node)
  /-- A name and the type of what it names. -/
  | symbol (name type : Node)
  /-- What a name without a type is printed with. -/
  | untyped
  /-- A type of the language. -/
  | basic (name : String) (qualifiers : Qualifiers)
  /-- A type of the program, after the word for what it is. -/
  | named (word : String) (name : Node) (qualifiers : Qualifiers)
  | pointer (mark : String) (target : Node) (qualifiers : Qualifiers)
  | array (length : Int) (element : Node) (qualifiers : Qualifiers)
  /-- A function, with words in front of it and behind it. -/
  | function (lead convention : String) (parameters : List Node) (trail : List String)
      (result : Node)
  /-- A pointer to a member function. -/
  | memberPointer (scope : Node) (convention : String) (parameters : List Node)
      (trail : List String) (result : Node)
  /-- A variable, with words in front of it. -/
  | stored (lead : String) (type : Node) (qualifiers : Qualifiers)
  /-- A table of a class, and the base that it is for. -/
  | table (kind : TableKind) (base : List Node) (qualifiers : Qualifiers)
  /-- A function that calls the function at a place of a table. -/
  | tableCall (place : Int) (convention : String)
  /-- The guard of a variable with a number. -/
  | guard (number : Int)
  deriving Inhabited

namespace Node

mutual

/-- Whether two parts are the same. -/
def isSame : Node → Node → Bool
  | .text s, .text t => s == t
  | .noted a s, .noted b t => isSame a b && s == t
  | .template a list, .template b list' => isSame a b && areSame list list'
  | .constructor, .constructor | .destructor, .destructor | .conversion, .conversion => true
  | .conversionTo a, .conversionTo b => isSame a b
  | .quoted a, .quoted b => isSame a b
  | .name list, .name list' => areSame list list'
  | .threadSafe s list, .threadSafe t list' => s == t && areSame list list'
  | .symbol a type, .symbol b type' => isSame a b && isSame type type'
  | .untyped, .untyped => true
  | .basic s q, .basic t q' => s == t && q == q'
  | .named s a q, .named t b q' => s == t && isSame a b && q == q'
  | .pointer s a q, .pointer t b q' => s == t && isSame a b && q == q'
  | .array n a q, .array m b q' => n == m && isSame a b && q == q'
  | .function s c list trail a, .function t d list' trail' b =>
    s == t && c == d && areSame list list' && trail == trail' && isSame a b
  | .memberPointer s c list trail a, .memberPointer t d list' trail' b =>
    isSame s t && c == d && areSame list list' && trail == trail' && isSame a b
  | .stored s a q, .stored t b q' => s == t && isSame a b && q == q'
  | .table k list q, .table l list' q' => k == l && areSame list list' && q == q'
  | .tableCall n c, .tableCall m d => n == m && c == d
  | .guard n, .guard m => n == m
  | _, _ => false

/-- Whether two lists have the same parts. -/
def areSame : List Node → List Node → Bool
  | [], [] => true
  | a :: as, b :: bs => isSame a b && areSame as bs
  | _, _ => false

end

/-- Whether a pointer to this type needs parentheses. -/
def bindsTighter : Node → Bool
  | function .. | array .. => true
  | _ => false

end Node

end Postmortem.Demangle.Microsoft
