import Postmortem.Debug.LineProgram

/-!
# Units

Debug information consists of units that follow each other. The header of a unit says how long it
is, how numbers are written in it and which abbreviations its entries use. The first entry is the
root: its attributes hold for the whole unit.
-/
namespace Postmortem.Debug

structure UnitHeader where
  /-- Where the unit starts in the section. -/
  start : Nat
  encoding : Encoding
  abbreviationsAt : Nat
  entries : Cursor

namespace UnitHeader

/-- The number of bytes of a unit header, by its type, that follow its common part. Type units give
a signature and an offset, split and skeleton units an identifier. -/
def extraSize? (offsetSize type : Nat) : Option Nat :=
  match type with
  | 1 | 3 => some 0
  | 4 | 5 => some 8
  | 2 | 6 => some (8 + offsetSize)
  | _ => none

/-- The header of the unit in the cursor. -/
def readBody (start : Nat) (wide : Bool) : Decoder UnitHeader := do
  let version ← Decoder.number 2
  if 2 ≤ version ∧ version ≤ 4 then
    let abbreviationsAt ← Decoder.number (if wide then 8 else 4)
    let addressSize ← Decoder.addressSize
    return { start, encoding := { wide, version, addressSize }, abbreviationsAt, entries := ← get }
  else if version = 5 then
    let type ← Decoder.number 1
    let addressSize ← Decoder.addressSize
    let encoding : Encoding := { wide, version, addressSize }
    let abbreviationsAt ← Decoder.offset encoding
    match extraSize? encoding.offsetSize type with
    | none => throw (.unsupportedUnit type)
    | some n => do
      Decoder.skip n
      return { start, encoding, abbreviationsAt, entries := ← get }
  else throw (.unknownVersion version)

/-- The next unit of the section. -/
def read : Decoder UnitHeader := do
  let start := (← get).position
  let (length, wide) ← Decoder.initialLength
  Decoder.readAt (readBody start wide) (← Decoder.split length)

/-- The units from the cursor on, and why they end early if they do. -/
def readAll (c : Cursor) : List UnitHeader × Option DebugError :=
  if c.atEnd then ([], none)
  else
    match read c with
    | .error x => ([], some x)
    | .ok (h, rest) =>
      if rest.remaining < c.remaining then
        let (headers, ending) := readAll rest
        (h :: headers, ending)
      else ([h], none)
termination_by c.remaining

/-- Where the entry at an offset from the start of the unit is, if the unit has that offset. -/
def entryAt? (h : UnitHeader) (offset : Nat) : Option Cursor :=
  let position := h.start + offset
  if h.entries.position ≤ position ∧ position < h.entries.stop then
    some { h.entries with position }
  else none

/-- The offset from the start of the unit of a place in the section, if the unit has it. -/
def localOffset? (h : UnitHeader) (offset : Nat) : Option Nat :=
  if h.start ≤ offset ∧ (h.entryAt? (offset - h.start)).isSome then some (offset - h.start)
  else none

end UnitHeader

/-- A unit with what its root says about it. -/
structure CompilationUnit where
  header : UnitHeader
  abbreviations : Abbreviations
  root : Entry
  bases : UnitBases
  /-- What range lists are relative to unless they say otherwise. -/
  lowAddress : Nat
  lineHeader : Option LineHeader

namespace CompilationUnit

/-- The first entry of the cursor that is no end of a list. -/
def firstEntry (e : Encoding) (abbreviations : Abbreviations) (c : Cursor) :
    Except DebugError Entry :=
  if c.atEnd then .error .missingRoot
  else
    match Entry.read e abbreviations c with
    | .error x => .error x
    | .ok (some entry, _) => .ok entry
    | .ok (none, rest) =>
      if rest.remaining < c.remaining then firstEntry e abbreviations rest else .error .missingRoot
termination_by c.remaining

/-- The last attribute of a name, as `meaning` understands it. -/
def lastValue {α : Type} (attributes : List Attribute) (names : List Nat)
    (meaning : AttributeValue → Option α) : Option α :=
  attributes.foldl (fun found a =>
    if names.contains a.name then (meaning a.value).orElse fun _ => found else found) none

/-- An offset into a section. -/
def sectionOffset? : AttributeValue → Option Nat
  | .sectionOffset o => some o
  | _ => none

/-- Reads the unit of a header. All attributes of the root have to be readable, and the header of
its line program if it has one; its name and directory need not be. -/
def load (s : DebugSections) (h : UnitHeader) : Except DebugError CompilationUnit := do
  let abbreviations ← Abbreviations.readAt s.abbreviations h.abbreviationsAt
  let root ← firstEntry h.encoding abbreviations h.entries
  let _ ← root.after
  let offset (names : List Nat) := lastValue root.attributes names sectionOffset?
  let value (name : Nat) := lastValue root.attributes [name] some
  let bases : UnitBases := {
    encoding := h.encoding
    textOffsets := (offset [AttributeName.textOffsetsBase]).getD 0
    addresses := (offset [AttributeName.addressBase, AttributeName.vendorAddressBase]).getD 0
    rangeLists := (offset [AttributeName.rangeListsBase, AttributeName.vendorRangesBase]).getD 0 }
  let text (name : Nat) : Option Bytes := do ((s.textOf bases (← value name)).toOption)
  let lineHeader ←
    match offset [AttributeName.lineProgram] with
    | none => pure none
    | some o => do
      let read := LineHeader.read h.encoding.addressSize (text AttributeName.name)
        (text AttributeName.directory)
      pure (some (← Decoder.readSection read s.lines o))
  let lowAddress ←
    match value AttributeName.lowAddress with
    | none => pure 0
    | some v => do pure ((← s.addressOf bases v).getD 0)
  return { header := h, abbreviations, root, bases, lowAddress, lineHeader }

/-- The unit that starts at an offset of the section. -/
def loadAt (s : DebugSections) (start : Nat) : Except DebugError CompilationUnit := do
  let (_, c) ← Decoder.skip start (.ofSection s.info)
  load s (← Decoder.readAt UnitHeader.read c)

def encoding (u : CompilationUnit) : Encoding := u.header.encoding

/-- The entries of the unit, and why they end early if they do. -/
def entries (u : CompilationUnit) : List Entry × Option DebugError :=
  Entry.readAll u.encoding u.abbreviations u.header.entries

/-- The entry at an offset from the start of the unit. -/
def entryAt (u : CompilationUnit) (offset : Nat) : Except DebugError Entry :=
  match u.header.entryAt? offset with
  | none => .error (.badReference offset)
  | some c =>
    match Decoder.readAt (Entry.read u.encoding u.abbreviations) c with
    | .error x => .error x
    | .ok (some entry) => .ok entry
    | .ok none => .error (.badReference offset)

end CompilationUnit

end Postmortem.Debug
