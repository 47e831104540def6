import Postmortem.Demangle.Itanium.Node

/-!
# Writing an Itanium C++ symbol: text and what surrounds a type

A type is printed around what it applies to: in `int (*)[3]`, the pointer stands between the parts
of the array. What is still to be written around the part at hand waits on a stack, the innermost
first. Whatever is printed within may take from the stack and write what it took; a type that finds
itself gone from it has been written.
-/
namespace Postmortem.Demangle.Itanium

/-- What is written around a part later. -/
inductive Surround where
  /-- A type that goes around another one. -/
  | type (node : Node)
  /-- The parameters of the function type at a place of the table. -/
  | parameters (self : Nat) (list : List Node)
  /-- The parameters of a function that has a name. -/
  | function (name : Node) (types : List Node)

namespace Surround

/-- The place in the table of what goes around. -/
def self? : Surround → Option Nat
  | type (.qualified self _ _) | type (.pointer self _) | type (.lvalueRef self _)
  | type (.rvalueRef self _) | type (.functionType self _ _ _ _) | type (.array self _ _)
  | type (.vector self _ _) | type (.memberPointer self _ _) => some self
  | _ => none

/-- Whether two entries of the stack are the same one. -/
def isSame (s t : Surround) : Bool :=
  match s, t with
  | parameters self _, parameters other _ => self == other
  | function .., function .. => true
  | type _, type _ => s.self? == t.self?
  | _, _ => false

/-- Whether a function with this around it needs parentheses, and then whether a blank has to come
before them. -/
def parenthesizes? : Surround → Option Bool
  | type (.qualified ..) | type (.memberPointer ..) => some true
  | type (.pointer ..) | type (.lvalueRef ..) | type (.rvalueRef ..) => some false
  | _ => none

/-- Whether this is written after the parameters of a function. -/
def isTrailing : Surround → Bool
  | type (.functionType _ qualifiers _ _ _) => !qualifiers.isEmpty
  | _ => false

def isQualified : Surround → Bool
  | type (.qualified ..) => true
  | _ => false

def isLvalueRef : Surround → Bool
  | type (.lvalueRef ..) => true
  | _ => false

def isRvalueRef : Surround → Bool
  | type (.rvalueRef ..) => true
  | _ => false

def isArray : Surround → Bool
  | type (.array ..) => true
  | _ => false

/-- Whether this is an array with qualifiers. -/
def isQualifiedArray (table : Table) : Surround → Bool
  | type (.qualified _ _ element) =>
    match element.resolve table with
    | .only (.array ..) => true
    | _ => false
  | _ => false

end Surround

/-- What is written so far and what later parts depend on. -/
structure Output where
  text : String
  last : Option Char
  /-- What is still to be written around the part at hand, the innermost first. -/
  around : List Surround
  /-- Functions are shown with their parameters. -/
  showsParameters : Bool
  /-- An argument pack was written out, after which dots for packs are left out. -/
  hasPack : Bool
  /-- The part at hand is in the parameters of a closure, where template parameters have no
  arguments. -/
  inClosure : Bool
  /-- The first parameter of the next list is the object that the function is called on. -/
  takesObject : Bool
  /-- The last name of the program that was written. -/
  name : Option String

/-- Writes a part; fails if the part has no readable form. -/
abbrev Writer := StateT Output Option

namespace Writer

/-- Appends text. -/
def write (s : String) : Writer Unit :=
  if s.isEmpty then return ()
  else modify fun o => { o with text := o.text ++ s, last := s.back? }

/-- Appends a blank unless there is one. -/
def blank : Writer Unit := do
  if (← get).last ≠ some ' ' then write " "

/-- Puts something on the stack. -/
def push (s : Surround) : Writer Unit := modify fun o => { o with around := s :: o.around }

/-- Takes the innermost entry from the stack. -/
def pop? : Writer (Option Surround) := do
  match (← get).around with
  | [] => return none
  | s :: rest =>
    modify fun o => { o with around := rest }
    return some s

/-- Takes the innermost entry from the stack if it is the given one. -/
def popSame (s : Surround) : Writer Bool := do
  match (← get).around with
  | t :: rest =>
    if !s.isSame t then return false
    modify fun o => { o with around := rest }
    return true
  | [] => return false

/-- Runs `w` with an empty stack. -/
def apart (w : Writer Unit) : Writer Unit := do
  let around := (← get).around
  modify fun o => { o with around := [] }
  w
  modify fun o => { o with around := around }

/-- Runs `w` with functions shown with their parameters. -/
def withParameters (w : Writer Unit) : Writer Unit := do
  let shows := (← get).showsParameters
  modify fun o => { o with showsParameters := true }
  w
  modify fun o => { o with showsParameters := shows }

/-- Writes items with commas between them. -/
def commaSeparated {α : Type} (w : α → Writer Unit) : List α → Writer Unit
  | [] => return ()
  | a :: rest => do
    w a
    rest.forM fun b => do
      write ", "
      w b

end Writer

end Postmortem.Demangle.Itanium
