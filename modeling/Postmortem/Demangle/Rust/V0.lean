import Postmortem.Demangle.Rust.Reader
import Postmortem.Demangle.Style
import Postmortem.Text.Visible

/-!
# Rust symbols of the newer scheme

A symbol is the tree of a path, written tag first, in which a part that was written before may be
replaced by a reference back to it. The tree is printed while it is read. References are followed
only while text is shown, so the form of a symbol is checked in one pass over it; what is wrong
behind a reference shows as a note in the text.

Trees may nest 500 levels deep, a reference counting one, and a text has at most a million bytes.
-/
namespace Postmortem.Demangle.Rust.V0

open Text

/-- What is printed and how. -/
structure Symbol where
  chars : Array Char
  style : Style

/-- The state of a printer: where to read on, unless something went wrong; how many lifetimes are
bound around this place; whether text is left out; the text so far and how much more may follow. -/
structure State where
  position : Except Fault Nat
  bound : Nat
  muted : Bool
  written : String
  room : Nat

/-- Reads and prints a part of a symbol. It stops early only when there is no more room. -/
abbrev Printer := ReaderT Symbol (EStateM Unit State)

namespace Printer

def put (s : String) : Printer Unit := do
  let state ← get
  if state.muted then return
  if s.utf8ByteSize ≤ state.room then
    set { state with written := state.written ++ s, room := state.room - s.utf8ByteSize }
  else throw ()

/-- Notes a fault in the text. Nothing can be read from here on. -/
def fail (fault : Fault) : Printer Unit := do
  put fault.message
  modify fun state => { state with position := .error fault }

/-- The result of a reader. After an earlier fault, a question mark stands for what is missing. -/
def attempt {α : Type} (reader : Reader α) : Printer (Option α) := do
  match (← get).position with
  | .error _ =>
    put "?"
    return none
  | .ok position =>
    match (reader (← read).chars).run position with
    | .ok (a, position) =>
      modify fun state => { state with position := .ok position }
      return some a
    | .error fault =>
      fail fault
      return none

/-- Takes `c` if it comes next. -/
def eat (c : Char) : Printer Bool := do
  match (← get).position with
  | .error _ => return false
  | .ok position =>
    if (← read).chars[position]? = some c then
      modify fun state => { state with position := .ok (position + 1) }
      return true
    else return false

/-- Reads with `p` and leaves out its text. -/
def mute (p : Printer Unit) : Printer Unit := do
  let muted := (← get).muted
  modify fun state => { state with muted := true }
  p
  modify fun state => { state with muted := muted }

def isBroken : Printer Bool := do
  match (← get).position with
  | .error _ => return true
  | .ok _ => return false

/-- Prints at most `n` items up to an `E`, and says how many there were. -/
def listUpTo (item : Printer Unit) (separator : String) : Nat → Nat → Printer Nat
  | 0, count => return count
  | n + 1, count => do
    if ← isBroken then return count
    if ← eat 'E' then return count
    if count > 0 then put separator
    item
    listUpTo item separator n (count + 1)

/-- Prints items up to an `E`. Each takes a character or fails, so there are no more of them than
characters. -/
def list (item : Printer Unit) (separator : String) : Printer Nat := do
  listUpTo item separator ((← read).chars.size + 1) 0

/-- Prints a lifetime by the number of binders between it and this place. -/
def lifetime (index : Nat) : Printer Unit := do
  let state ← get
  if state.muted then return
  put "'"
  if index = 0 then put "_"
  else if index ≤ state.bound then
    let depth := state.bound - index
    if depth < 26 then put (String.singleton (Char.ofNat ('a'.toNat + depth)))
    else
      put "_"
      put (toString depth)
  else fail .invalid

/-- Names `n` newly bound lifetimes, the first of them without a comma when `first`. -/
def bindLifetimes : Nat → Bool → Printer Unit
  | 0, _ => return
  | n + 1, first => do
    unless first do put ", "
    modify fun state => { state with bound := state.bound + 1 }
    lifetime 1
    bindLifetimes n false

/-- Prints with `p` in the scope of the lifetimes that are bound here. -/
def inBinder (p : Printer Unit) : Printer Unit := do
  let some count ← attempt (Reader.optInteger 'G') | return
  if (← get).muted then p
  else
    let bound := (← get).bound
    if count > 0 then
      put "for<"
      bindLifetimes count true
      put "> "
    p
    modify fun state => { state with bound := bound }

end Printer

open Printer

/-- The parts of a symbol that contain each other. A path and a constant are written differently
among values; `openPath` leaves the generic arguments of a trait open for more. -/
inductive Production where
  | path (inValue : Bool)
  | type
  | const (inValue : Bool)
  | pattern
  | openPath

/-- How parts are printed one level deeper, two levels deeper and so on, as far as they may nest.
The answer says whether generic arguments were left open. -/
abbrev Ladder := List (Production → Printer Bool)

/-- Goes one level deeper. -/
def enter (deeper : Ladder) (body : (Production → Printer Bool) → Ladder → Printer Unit) :
    Printer Unit := do
  if ← isBroken then put "?"
  else
    match deeper with
    | [] => fail .tooDeep
    | inner :: rest => body inner rest

/-- Prints the part that a reference leads to. -/
def follow (deeper : Ladder) (p : Production) : Printer Bool := do
  let some target ← attempt (Reader.backref !deeper.isEmpty) | return false
  let state ← get
  if state.muted then return false
  match deeper with
  | [] => return false
  | inner :: _ =>
    set { state with position := .ok target }
    let isOpen ← inner p
    modify fun after => { after with position := state.position }
    return isOpen

/-- The types with a tag of their own. -/
def basicType? : Char → Option String
  | 'b' => some "bool"
  | 'c' => some "char"
  | 'e' => some "str"
  | 'u' => some "()"
  | 'a' => some "i8"
  | 's' => some "i16"
  | 'l' => some "i32"
  | 'x' => some "i64"
  | 'n' => some "i128"
  | 'i' => some "isize"
  | 'h' => some "u8"
  | 't' => some "u16"
  | 'm' => some "u32"
  | 'y' => some "u64"
  | 'o' => some "u128"
  | 'j' => some "usize"
  | 'f' => some "f32"
  | 'd' => some "f64"
  | 'z' => some "!"
  | 'p' => some "_"
  | 'v' => some "..."
  | _ => none

/-- An item of a list of generic arguments: a lifetime, a constant or a type. -/
def genericArg (type const : Printer Unit) : Printer Unit := do
  if ← eat 'L' then
    let some index ← attempt Reader.integer | return
    lifetime index
  else if ← eat 'K' then const
  else type

/-- The last part of a nested path. Upper case namespaces are those of parts without a name of
their own. -/
def nestedName (space : Char) (distinct : Nat) (name : Ident) : Printer Unit := do
  if 'A' ≤ space ∧ space ≤ 'Z' then
    put "::\x7b"
    put <| match space with
      | 'C' => "closure"
      | 'S' => "shim"
      | c => String.singleton c
    unless name.isEmpty do
      put ":"
      put name.text
    put "#"
    put (toString distinct)
    put "\x7d"
  else unless name.isEmpty do
    put "::"
    put name.text

/-- The namespace tag of a nested path. -/
def space : Reader Char := do
  let c ← Reader.next
  if c.isAlpha then return c else throw .invalid

/-- Prints a path. -/
def path (deeper : Ladder) (inValue : Bool) : Printer Unit := enter deeper fun inner rest => do
  let some tag ← attempt Reader.next | return
  match tag with
  | 'C' =>
    let some distinct ← attempt Reader.disambiguator | return
    let some name ← attempt Ident.read | return
    put name.text
    if (← read).style = .complete ∧ distinct ≠ 0 then
      put "["
      put (hex distinct)
      put "]"
  | 'N' =>
    let some space ← attempt space | return
    discard (inner (.path inValue))
    if ← isBroken then put "::"
    let some distinct ← attempt Reader.disambiguator | return
    let some name ← attempt Ident.read | return
    nestedName space distinct name
  | 'I' =>
    discard (inner (.path inValue))
    if inValue then put "::"
    put "<"
    discard (list (genericArg (discard (inner .type)) (discard (inner (.const false)))) ", ")
    put ">"
  | 'B' => discard (follow rest (.path inValue))
  | _ =>
    unless tag = 'M' ∨ tag = 'X' ∨ tag = 'Y' do return ← fail .invalid
    unless tag = 'Y' do
      let some _ ← attempt Reader.disambiguator | return
      mute (discard (inner (.path false)))
    put "<"
    discard (inner .type)
    unless tag = 'M' do
      put " as "
      discard (inner (.path false))
    put ">"

/-- A tuple of one item keeps a comma. -/
def tuple (item : Printer Unit) : Printer Unit := do
  put "("
  let count ← list item ", "
  if count = 1 then put ","
  put ")"

/-- The calling convention of a function type, in which dashes are coded as underscores. -/
def callingConvention : Reader (List Char) := do
  if ← Reader.eat 'C' then return ['C']
  let name ← Ident.read
  if name.ascii.isEmpty || !name.punycode.isEmpty then throw .invalid
  return name.ascii.map fun c => if c = '_' then '-' else c

/-- The type of a function, after its binder. -/
def functionType (inner : Production → Printer Bool) : Printer Unit := do
  let isUnsafe ← eat 'U'
  let convention ← do
    if ← eat 'K' then
      let some convention ← attempt callingConvention | return
      pure (some convention)
    else pure none
  if isUnsafe then put "unsafe "
  if let some name := convention then
    put "extern \""
    put (String.ofList name)
    put "\" "
  put "fn("
  discard (list (discard (inner .type)) ", ")
  put ")"
  unless ← eat 'u' do
    put " -> "
    discard (inner .type)

/-- At most `n` constants and types that are bound to names, within the generic arguments of a
trait. Says whether the arguments are open in the end. -/
def associatedItems (type const : Printer Unit) : Nat → Bool → Printer (Option Bool)
  | 0, isOpen => return some isOpen
  | n + 1, isOpen => do
    unless ← eat 'p' do return some isOpen
    put (if isOpen then ", " else "<")
    let some name ← attempt Ident.read | return none
    put name.text
    put " = "
    if ← eat 'K' then const else type
    associatedItems type const n true

/-- A trait of a trait object. -/
def dynTrait (inner : Production → Printer Bool) : Printer Unit := do
  let isOpen ← inner .openPath
  let type := discard (inner .type)
  let const := discard (inner (.const false))
  let some isOpen ← associatedItems type const (← read).chars.size isOpen | return
  if isOpen then put ">"

/-- Prints a type. -/
def type (deeper : Ladder) : Printer Unit := do
  let some tag ← attempt Reader.next | return
  if let some name := basicType? tag then return ← put name
  enter deeper fun inner rest => do
    let type := discard (inner .type)
    match tag with
    | 'R' | 'Q' =>
      put "&"
      if ← eat 'L' then
        let some index ← attempt Reader.integer | return
        if index ≠ 0 then
          lifetime index
          put " "
      if tag = 'Q' then put "mut "
      type
    | 'P' =>
      put "*const "
      type
    | 'O' =>
      put "*mut "
      type
    | 'A' =>
      put "["
      type
      put "; "
      discard (inner (.const true))
      put "]"
    | 'S' =>
      put "["
      type
      put "]"
    | 'T' => tuple type
    | 'F' => inBinder (functionType inner)
    | 'D' =>
      put "dyn "
      inBinder (discard (list (dynTrait inner) " + "))
      unless ← eat 'L' do return ← fail .invalid
      let some index ← attempt Reader.integer | return
      if index ≠ 0 then
        put " + "
        lifetime index
    | 'B' => discard (follow rest .type)
    | 'W' =>
      type
      put " is "
      discard (inner .pattern)
    | 'w' =>
      put "#[splat] "
      type
    | _ =>
      modify fun state => { state with position := state.position.map (· - 1) }
      discard (inner (.path false))

/-- The numeral of a constant. Only as many bits as a machine word has are written in decimal. -/
def number (tag : Char) : Printer Unit := do
  let some digits ← attempt Reader.nibbles | return
  match nibblesValue? digits with
  | some n => put (toString n)
  | none =>
    put "0x"
    put (String.ofList digits)
  if (← read).style = .complete then put ((basicType? tag).getD "")

/-- A character within quotes. The other kind of quote needs no escape; what does not show by itself
is given by its number. -/
def quotedChar (quote c : Char) : String :=
  if c = '"' ∨ c = '\'' then if c = quote then "\\" ++ String.singleton c else String.singleton c
  else
    match c with
    | '\x00' => "\\0"
    | '\t' => "\\t"
    | '\r' => "\\r"
    | '\n' => "\\n"
    | '\\' => "\\\\"
    | c =>
      if isVisible c then String.singleton c else "\\u\x7b" ++ hex c.toNat ++ "\x7d"

/-- Characters between quotes. -/
def quoted (quote : Char) (cs : List Char) : Printer Unit := do
  put (String.singleton quote)
  cs.forM fun c => put (quotedChar quote c)
  put (String.singleton quote)

/-- The text of a string constant. -/
def string : Printer Unit := do
  let some digits ← attempt Reader.nibbles | return
  match (nibblesBytes? digits).bind fun bytes => String.fromUTF8? ⟨bytes.toArray⟩ with
  | some s => quoted '"' s.toList
  | none => fail .invalid

/-- The character with a number. -/
def char? (n : Nat) : Option Char :=
  if h : n.isValidChar then some (Char.ofNatAux n h) else none

/-- A field of a constant, with its name. -/
def field (value : Printer Unit) : Printer Unit := do
  let some _ ← attempt Reader.disambiguator | return
  let some name ← attempt Ident.read | return
  put name.text
  put ": "
  value

/-- Puts braces around what is no literal, unless it is part of a value already. -/
def braced (inValue : Bool) (body : Printer Bool) : Printer Unit := do
  unless inValue do put "\x7b"
  if (← body) && !inValue then put "\x7d"

/-- Prints a constant. -/
def const (deeper : Ladder) (inValue : Bool) : Printer Unit := do
  let some tag ← attempt Reader.next | return
  enter deeper fun inner rest => do
    let value := discard (inner (.const true))
    match tag with
    | 'p' => put "_"
    | 'h' | 't' | 'm' | 'y' | 'o' | 'j' => number tag
    | 'a' | 's' | 'l' | 'x' | 'n' | 'i' =>
      if ← eat 'n' then put "-"
      number tag
    | 'b' =>
      let some digits ← attempt Reader.nibbles | return
      match nibblesValue? digits with
      | some 0 => put "false"
      | some 1 => put "true"
      | _ => fail .invalid
    | 'c' =>
      let some digits ← attempt Reader.nibbles | return
      match (nibblesValue? digits).bind char? with
      | some c => quoted '\'' [c]
      | none => fail .invalid
    | 'e' => braced inValue do
      put "*"
      string
      return true
    | 'R' | 'Q' =>
      if ← (if tag = 'R' then eat 'e' else pure false) then string
      else braced inValue do
        put (if tag = 'R' then "&" else "&mut ")
        value
        return true
    | 'A' => braced inValue do
      put "["
      discard (list value ", ")
      put "]"
      return true
    | 'T' => braced inValue do
      tuple value
      return true
    | 'V' => braced inValue do
      discard (inner (.path true))
      let some shape ← attempt Reader.next | return false
      match shape with
      | 'U' => return true
      | 'T' =>
        put "("
        discard (list value ", ")
        put ")"
        return true
      | 'S' =>
        put " \x7b "
        discard (list (field value) ", ")
        put " \x7d"
        return true
      | _ =>
        fail .invalid
        return false
    | 'B' => discard (follow rest (.const inValue))
    | _ => fail .invalid

/-- At most `n` alternatives after the first one, up to an `E`. A fault in one of them is a fault of
the whole. -/
def alternatives (pattern : Printer Unit) : Nat → Printer Unit
  | 0 => return
  | n + 1 => do
    if ← isBroken then return ← fail .invalid
    if ← eat 'E' then return
    put " | "
    pattern
    alternatives pattern n

/-- Prints the values that a restricted type may have. -/
def pattern (deeper : Ladder) : Printer Unit := do
  let some tag ← attempt Reader.next | return
  match tag with
  | 'R' =>
    const deeper false
    put "..="
    const deeper false
  | 'O' => enter deeper fun inner _ => do
    let pattern := discard (inner .pattern)
    pattern
    alternatives pattern (← read).chars.size
  | 'N' => put "!null"
  | _ => fail .invalid

/-- Prints a path; generic arguments at its end stay open. -/
def openPath (deeper : Ladder) : Printer Bool := do
  if ← eat 'B' then follow deeper .openPath
  else if ← eat 'I' then
    path deeper false
    put "<"
    discard (list (genericArg (type deeper) (const deeper false)) ", ")
    return true
  else
    path deeper false
    return false

/-- Prints a part, given how the parts within it are printed. -/
def part (deeper : Ladder) : Production → Printer Bool
  | .path inValue => do
    path deeper inValue
    return false
  | .type => do
    type deeper
    return false
  | .const inValue => do
    const deeper inValue
    return false
  | .pattern => do
    pattern deeper
    return false
  | .openPath => openPath deeper

/-- The printers that may be nested at most `n` deep, the one for the outermost part first. -/
def ladder : Nat → Ladder
  | 0 => []
  | n + 1 => part (ladder n) :: ladder n

/-- How deep parts may nest. -/
def depthLimit : Nat := 500

/-- How many bytes a text may have. -/
def sizeLimit : Nat := 1000000

/-- Prints the path at the start of the symbol or, with `muted`, only reads it. -/
def run (symbol : Symbol) (position : Nat) (muted : Bool) : EStateM.Result Unit State Unit :=
  (path (ladder depthLimit) true symbol).run ⟨.ok position, 0, muted, "", sizeLimit⟩

/-- The place after the path at `position`. -/
def pathEnd? (symbol : Symbol) (position : Nat) : Option Nat :=
  match run symbol position true with
  | .ok _ state => state.position.toOption
  | .error _ _ => none

/-- A checked symbol and what follows it. -/
structure Checked where
  symbol : Symbol
  rest : List Char

/-- Whether a path may start with `c`. -/
def startsPath (c : Char) : Bool := 'A' ≤ c && c ≤ 'Z'

/-- Checks the form of a symbol: a path, and after it perhaps the path of the place it was made
in. All of it has to be ASCII. -/
def read? (style : Style) : List Char → Option Checked
  | '_' :: 'R' :: inner => do
    guard (inner.head?.any startsPath && inner.all (·.toNat < 128))
    let symbol : Symbol := ⟨inner.toArray, style⟩
    let position ← pathEnd? symbol 0
    let position ←
      if symbol.chars[position]?.any startsPath then pathEnd? symbol position else some position
    return ⟨symbol, inner.drop position⟩
  | _ => none

/-- The readable name. -/
def Checked.text (c : Checked) : String :=
  match run c.symbol 0 false with
  | .ok _ state => state.written
  | .error _ state => state.written ++ "\x7bsize limit reached\x7d"

end Postmortem.Demangle.Rust.V0
