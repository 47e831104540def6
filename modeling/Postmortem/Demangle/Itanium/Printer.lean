import Postmortem.Demangle.Itanium.Output
import Postmortem.Demangle.Itanium.Parser
import Postmortem.Demangle.Style

/-!
# Printing an Itanium C++ symbol

Parts are printed from left to right. What the template parameters of a part stand for, and what
its constructors are called, depends on the names that the part is in, so a part is printed in a
scope of these.
-/
namespace Postmortem.Demangle.Itanium

open Itanium.Writer

/-- What a scope makes known. -/
inductive Binding where
  /-- What constructors and destructors are called. -/
  | leaf (name : Node)
  /-- What template parameters stand for. -/
  | arguments (id : Nat) (list : List Node)

/-- A scope, and, while a list of template arguments is printed in it, the place in the list. -/
structure Frame where
  binding : Binding
  inside : Option (Nat × Nat)

/-- What a part is printed with: the table, the scopes that it is in, the innermost first, and
whether results of functions are shown. -/
structure Context where
  table : Table
  scopes : List Frame
  showsResult : Bool

namespace Context

/-- The context within one more scope. -/
def push (c : Context) (binding : Binding) : Context :=
  { c with scopes := ⟨binding, none⟩ :: c.scopes }

/-- The context within template arguments. -/
def pushArguments (c : Context) : Option Node → Context
  | some (.arguments id list) => c.push (.arguments id list)
  | _ => c

/-- The context of the argument at a place of a list of template arguments. -/
def atArgument (c : Context) (id index : Nat) : Context :=
  match c.scopes with
  | [] => c
  | frame :: rest => { c with scopes := { frame with inside := some (id, index) } :: rest }

/-- What constructors are called. -/
def leaf? (c : Context) : Option Node :=
  c.scopes.findSome? fun frame =>
    match frame.binding with
    | .leaf name => some name
    | .arguments .. => none

/-- The argument of a template parameter: from the innermost scope that has so many. An argument
cannot refer to itself or to a later one of its list. -/
def argument? (c : Context) (index : Nat) : Option Node :=
  go c.scopes
where
  go : List Frame → Option Node
    | [] => none
    | ⟨.leaf _, _⟩ :: rest => go rest
    | ⟨.arguments id list, inside⟩ :: rest =>
      match list[index]? with
      | none => go rest
      | some argument =>
        if inside.any fun (list, place) => list == id && place ≤ index then none
        else some argument

end Context

/-- What can be printed. -/
inductive Item where
  | part (node : Node)
  /-- What goes around a part, at the place where it is written. -/
  | around (s : Surround)
  /-- The parameters of a function. -/
  | parameters (list : List Node)

/-- Prints an item that is nested in another one. -/
abbrev ItemPrinter := Context → Item → Writer Unit

/-- Prints a part; plain text is not nested. -/
def say (print : ItemPrinter) (c : Context) : Node → Writer Unit
  | .text s => write s
  | node => print c (.part node)

/-- Qualifiers, each after a blank. -/
def writeQualifiers (q : Qualifiers) : Writer Unit :=
  q.words.forM fun word => do
    blank
    write word

/-- The reference after the qualifiers of a function. -/
def writeReference (reference : Option String) : Writer Unit := do
  if let some mark := reference then
    blank
    write mark

/-- Prints `inner` with something around it. -/
def surrounded (print : ItemPrinter) (c : Context) (s : Surround) (inner : Node) :
    Writer Unit := do
  push s
  say print c inner
  if ← popSame s then print c (.around s)

/-- Writes what is on the stack, at most `n` entries. -/
def writeAround (print : ItemPrinter) (c : Context) : Nat → Writer Unit
  | 0 => return ()
  | n + 1 => do
    let some s ← pop? | return ()
    print c (.around s)
    writeAround print c n

/-- Writes what is on the stack, at most `n` entries, and leaves what comes after the parameters of
a function, of which `trailing` is found already. -/
def writeLeading (print : ItemPrinter) (c : Context) : Nat → List Surround → Writer Unit
  | 0, trailing => modify fun o => { o with around := trailing }
  | n + 1, trailing => do
    match ← pop? with
    | none => modify fun o => { o with around := trailing }
    | some s =>
      if s.isTrailing then writeLeading print c n (trailing ++ [s])
      else
        print c (.around s)
        writeLeading print c n trailing

/-- Writes what is on the stack and belongs before the parameters of a function. -/
def writeAllLeading (print : ItemPrinter) (c : Context) : Writer Unit := do
  writeLeading print c ((← get).around.length + 1) []

/-- Prints the parameters of a function, with what goes around the function. The type of a function
without parameters has `void` in their place. -/
def printParameters (print : ItemPrinter) (c : Context) (list : List Node) : Writer Unit := do
  match (← get).around.findSome? (·.parenthesizes?) with
  | none => writeAllLeading print c
  | some needsBlank =>
    if needsBlank || !(← get).last.any ['(', '*'].contains then blank
    write "("
    writeAllLeading print c
    write ")"
  write "("
  match list with
  | [.builtin "void"] => write ")"
  | list =>
    commaSeparated (fun parameter => do
      if (← get).takesObject then
        modify fun o => { o with takesObject := false }
        write "this "
      say print c parameter) list
    write ")"
    writeAround print c (← get).around.length

/-- Writes what goes around an array, at most `n` entries of the stack. The answer is whether a
blank has to come before its dimension, as it does unless it is an element itself. -/
def writeAroundArray (print : ItemPrinter) (c : Context) : Nat → Bool → Writer Bool
  | 0, needsBlank => return needsBlank
  | n + 1, needsBlank => do
    let some s ← pop? | return needsBlank
    if s.isQualifiedArray c.table then
      print c (.around s)
      writeAroundArray print c n needsBlank
    else if s.isArray then
      print c (.around s)
      writeAroundArray print c n false
    else
      blank
      if s.isQualified then
        print c (.around s)
        blank
        write "("
      else
        write "("
        print c (.around s)
      writeAllLeading print c
      write ")"
      writeAroundArray print c n needsBlank

/-- References around a reference collapse: rvalue references go, and the answer is whether an
lvalue reference is left, within which this one disappears. -/
def collapseReferences : Writer Bool := do
  modify fun o => { o with around := o.around.dropWhile (·.isRvalueRef) }
  return (← get).around.head?.any (·.isLvalueRef)

/-- Prints what goes around a part. -/
def printAround (print : ItemPrinter) (c : Context) : Surround → Writer Unit
  | .parameters _ list => print c (.parameters list)
  | .function name types =>
    match name.arguments? c.table with
    | none => print c (.parameters types)
    | some arguments => print (c.pushArguments (some arguments)) (.parameters types.tail)
  | .type node =>
    match node with
    | .qualified _ q _ => writeQualifiers q
    | .pointer .. => write "*"
    | .lvalueRef .. => do unless ← collapseReferences do write "&"
    | .rvalueRef .. => do unless ← collapseReferences do write "&&"
    | .functionType _ q reference _ _ => do
      writeQualifiers q
      writeReference reference
    | .array _ dimension _ => do
      if ← writeAroundArray print c ((← get).around.length) true then blank
      write "["
      say print c dimension
      write "]"
    | .vector _ dimension _ => do
      write " __vector("
      say print c dimension
      write ")"
    | .memberPointer _ scope _ => do
      if (← get).last ≠ some '(' then blank
      say print c scope
      write "::*"
    | _ => failure

/-- Prints the name that a constructor has. -/
def printLeaf (print : ItemPrinter) (c : Context) : Node → Writer Unit
  | .known name => write (name.leaf?.getD "")
  | .unnamed number => do
    match (← get).name with
    | some name => write name
    | none => say print c (.unnamed number)
  | node => say print c node

/-- Prints template arguments in brackets, which are kept apart from others of their kind. -/
def printArguments (print : ItemPrinter) (c : Context) (id : Nat) (list : List Node) :
    Writer Unit := apart do
  if (← get).last = some '<' then blank
  write "<"
  commaSeparated (fun (argument, index) => say print (c.atArgument id index) argument) list.zipIdx
  if (← get).last = some '>' then blank
  write ">"

/-- Prints a function: its result if the name has template arguments, its name, and its parameters
where the name leaves them to be written. -/
def printFunction (print : ItemPrinter) (c : Context) (name : Node) (types : List Node) :
    Writer Unit := apart do
  let c := match name.leaf? c.table with
    | some leaf => c.push (.leaf leaf)
    | none => c
  let arguments := name.arguments? c.table
  let c := c.pushArguments arguments
  if arguments.isSome && c.showsResult && !name.hasNoResult c.table then
    if let some result := types.head? then say print c result
    write " "
  if (← get).showsParameters then surrounded print c (.function name types) name
  else say print c name

/-- Prints a part, within which parts may be nested `levels` deep. -/
def printPart (levels : Nat) (print : ItemPrinter) (c : Context) (node : Node) : Writer Unit :=
  let say (node : Node) : Writer Unit := Itanium.say print c node
  let leaf (s : String) : Writer Unit := if levels = 0 then failure else write s
  match node.resolve c.table with
  | .text s => write s
  | .phrase parts => parts.forM say
  | .only part => say part
  | .entry _ => failure
  | .known name => write name.text
  | .source name => do
    if isAnonymous name then leaf "(anonymous namespace)"
    else
      modify fun o => { o with name := some name }
      leaf name
  | .unqualified name tags => do
    if name.isOperator then write "operator"
    say name
    say tags
  | .operator spelling => do
    if spelling.front.isAlpha then blank
    leaf spelling
  | .conversion type => do
    blank
    Itanium.say print (c.pushArguments (type.typeArguments? c.table)) type
  | .literalOperator name => do
    say name
    write "::operator \"\""
  | .foreignOperator arity name => do
    say name
    write ("::operator " ++ toString arity)
  | .constructor inherited => do
    let leaf ← c.leaf?
    match inherited with
    | none => printLeaf print c leaf
    | some type => printLeaf print c (← type.leaf? c.table)
  | .destructor => do
    let leaf ← c.leaf?
    write "~"
    printLeaf print c leaf
  | .closure parameters number => do
    write "\x7blambda("
    say parameters
    write (")#" ++ toString number ++ "\x7d")
  | .signature parameters => do
    modify fun o => { o with inClosure := true }
    commaSeparated say parameters
    modify fun o => { o with inClosure := false }
  | .unnamed number => write ("\x7bunnamed type#" ++ toString number ++ "\x7d")
  | .unscoped isStandard name => do
    if isStandard then write "std::"
    say name
  | .within scope name | .member scope name => do
    say scope
    write "::"
    say name
  | .template scope arguments => do
    say scope
    say arguments
  | .nested marks parts => do
    parts.forM say
    if marks.takesObject then modify fun o => { o with takesObject := true }
    if let some s ← pop? then print c (.around s)
    if (← get).showsParameters then writeQualifiers marks.qualifiers
    writeReference marks.reference
  | .unscopedTemplate name arguments => do
    Itanium.say print (c.pushArguments (some arguments)) name
    say arguments
  | .arguments id list => printArguments print c id list
  | .pack list => do
    modify fun o => { o with hasPack := true }
    commaSeparated say list
  | .localName function entity => withParameters do
    say function
    write "::"
    say entity
  | .defaultArgument function _ => withParameters (say function)
  | .function name types => printFunction print c name types
  | .apart part => apart (say part)
  | .symbol encoding clones => do
    say encoding
    if (← get).showsParameters then clones.forM say
  | .keyed lead symbol => apart do
    write lead
    withParameters (say symbol)
  | .external symbol => withParameters (say symbol)
  | .templateParam index => do
    if (← get).inClosure then write ("auto:" ++ toString (index + 1))
    else say (← c.argument? index)
  | .parameter s | .builtin s => leaf s
  | node@(.qualified _ _ type) | node@(.pointer _ type) | node@(.lvalueRef _ type)
  | node@(.rvalueRef _ type) | node@(.array _ _ type) | node@(.vector _ _ type)
  | node@(.memberPointer _ _ type) => surrounded print c (.type node) type
  | .marked type name arguments => do
    say type
    write " "
    say name
    if let some arguments := arguments then say arguments
  | .packExpansion type => do
    say type
    unless (← get).hasPack do write "..."
  | node@(.functionType _ _ _ exceptions types) => do
    surrounded print c (.type node) types
    if let some exceptions := exceptions then
      blank
      say exceptions
  | .types self result parameters => do
    let s := Surround.parameters self parameters
    push s
    say result
    if ← popSame s then
      blank
      print c (.around s)
  | .templateTemplate param arguments => do
    say param
    say arguments

/-- Prints an item, within which parts may be nested `levels` deep. -/
def printItem (levels : Nat) (print : ItemPrinter) (c : Context) : Item → Writer Unit
  | .part node => printPart levels print c node
  | .around s => printAround print c s
  | .parameters list => printParameters print c list

/-- Prints items that are nested at most `n` deep. -/
def print : Nat → ItemPrinter
  | 0, _, _ => failure
  | n + 1, c, item => printItem n (print n) c item

/-- How deep parts may be nested when they are printed. -/
def printDepthLimit : Nat := 127

/-- The readable form of a symbol that was read with the table of what it refers to. -/
def text? (style : Style) (symbol : Node) (table : Table) : Option String := do
  let isComplete := style = .complete
  let start : Output := ⟨"", none, [], isComplete, false, false, false, none⟩
  let ((), output) ← (print printDepthLimit ⟨table, [], isComplete⟩ (.part symbol)).run start
  return output.text

/-- The readable name of a symbol. -/
def demangle? (style : Style) (symbol : String) : Option String := do
  let bytes := symbol.toUTF8.toList.map fun b => Char.ofNat b.toNat
  let (root, table) ← read? bytes
  text? style root table

end Postmortem.Demangle.Itanium
