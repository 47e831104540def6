import Postmortem.Debug.Abbreviation

/-!
# Attributes

The bytes of an attribute are read according to its form. Values are kept by what they mean: an
address or the index of one, a constant, an offset into some section, a text or where it is.
Everything else is passed over.
-/
namespace Postmortem.Debug

/-! The names of the attributes that matter here. -/

namespace AttributeName

def name : Nat := 0x03
def lineProgram : Nat := 0x10
def lowAddress : Nat := 0x11
def highAddress : Nat := 0x12
def directory : Nat := 0x1b
def abstractOrigin : Nat := 0x31
def specification : Nat := 0x47
def ranges : Nat := 0x55
def linkageName : Nat := 0x6e
def textOffsetsBase : Nat := 0x72
def addressBase : Nat := 0x73
def rangeListsBase : Nat := 0x74
def vendorLinkageName : Nat := 0x2007
def vendorRangesBase : Nat := 0x2132
def vendorAddressBase : Nat := 0x2133

end AttributeName

inductive AttributeValue where
  | address (value : Nat)
  /-- The position of an address in the address section. -/
  | addressIndex (index : Nat)
  | constant (value : Nat)
  | signedConstant (value : Int)
  | sectionOffset (offset : Nat)
  /-- An entry of the same unit, from the start of the unit. -/
  | unitReference (offset : Nat)
  /-- An entry of any unit, from the start of the section. -/
  | entryReference (offset : Nat)
  | text (value : Bytes)
  | textOffset (offset : Nat)
  | lineTextOffset (offset : Nat)
  /-- The position of a text's offset in the text offset section. -/
  | textIndex (index : Nat)
  | rangeListIndex (index : Nat)
  | other

namespace AttributeValue

/-- A constant that is not negative. -/
def constant? : AttributeValue → Option Nat
  | constant v => some v
  | signedConstant v => if v < 0 then none else some v.toNat
  | _ => none

end AttributeValue

/-- A value that is passed over. -/
def Decoder.block (size : Decoder Nat) : Decoder AttributeValue := do
  Decoder.skip (← size)
  return .other

/-- The value of a form that entries and line program headers share; `none` when the form is not
one of those. -/
def sharedForm? (e : Encoding) (form : Nat) : Option (Decoder AttributeValue) :=
  match form with
  | 0x03 => some (.block (Decoder.number 2))
  | 0x04 => some (.block (Decoder.number 4))
  | 0x05 => some (.constant <$> Decoder.number 2)
  | 0x06 => some (.constant <$> Decoder.number 4)
  | 0x07 => some (.constant <$> Decoder.number 8)
  | 0x08 => some (.text <$> Decoder.zeroTerminated)
  | 0x09 => some (.block Decoder.unsigned)
  | 0x0a => some (.block (Decoder.number 1))
  | 0x0b => some (.constant <$> Decoder.number 1)
  | 0x0c => some (.block (pure 1))
  | 0x0d => some (.signedConstant <$> Decoder.signed)
  | 0x0e => some (.textOffset <$> Decoder.offset e)
  | 0x0f => some (.constant <$> Decoder.unsigned)
  | 0x17 => some (.sectionOffset <$> Decoder.offset e)
  | 0x1a | 0x1f02 => some (.textIndex <$> Decoder.unsigned)
  | 0x1d | 0x1f21 => some (.block (pure e.offsetSize))
  | 0x1e => some (.block (pure 16))
  | 0x1f => some (.lineTextOffset <$> Decoder.offset e)
  | 0x25 => some (.textIndex <$> Decoder.number 1)
  | 0x26 => some (.textIndex <$> Decoder.number 2)
  | 0x27 => some (.textIndex <$> Decoder.number 3)
  | 0x28 => some (.textIndex <$> Decoder.number 4)
  | _ => none

/-- The value of a form that only entries use. References to other entries from version two have
the size of an address. -/
def entryForm? (e : Encoding) (form : Nat) : Option (Decoder AttributeValue) :=
  match form with
  | 0x01 => some (.address <$> Decoder.address e)
  | 0x10 =>
    some (.entryReference <$> if e.version = 2 then Decoder.address e else Decoder.offset e)
  | 0x11 => some (.unitReference <$> Decoder.number 1)
  | 0x12 => some (.unitReference <$> Decoder.number 2)
  | 0x13 => some (.unitReference <$> Decoder.number 4)
  | 0x14 => some (.unitReference <$> Decoder.number 8)
  | 0x15 => some (.unitReference <$> Decoder.unsigned)
  | 0x18 => some (.block Decoder.unsigned)
  | 0x19 => some (pure .other)
  | 0x1b | 0x1f01 => some (.addressIndex <$> Decoder.unsigned)
  | 0x1c => some (.block (pure 4))
  | 0x20 | 0x24 => some (.block (pure 8))
  | 0x22 => some ((fun _ => .other) <$> Decoder.unsigned)
  | 0x23 => some (.rangeListIndex <$> Decoder.unsigned)
  | 0x29 => some (.addressIndex <$> Decoder.number 1)
  | 0x2a => some (.addressIndex <$> Decoder.number 2)
  | 0x2b => some (.addressIndex <$> Decoder.number 3)
  | 0x2c => some (.addressIndex <$> Decoder.number 4)
  | 0x1f20 => some (.block (pure e.offsetSize))
  | _ => sharedForm? e form

/-- The form whose actual form precedes the value. -/
def indirectForm : Nat := 0x16

/-- The actual form of a value. -/
def resolveForm (form : Nat) (c : Cursor) : Except DebugError (Nat × Cursor) :=
  if form = indirectForm then
    match Decoder.unsigned16 c with
    | .error e => .error e
    | .ok (actual, rest) =>
      if rest.remaining < c.remaining then resolveForm actual rest else .error .endOfData
  else .ok (form, c)
termination_by c.remaining

/-- Whether a constant as wide as an offset is an offset into a section when an attribute of this
name has it. -/
def holdsSectionOffset (name : Nat) : Bool :=
  name = AttributeName.ranges || name = AttributeName.lineProgram

structure Attribute where
  name : Nat
  value : AttributeValue

namespace Attribute

/-- The form of constants that are as wide as an offset. -/
def offsetSizedForm (e : Encoding) : Nat := if e.wide then 0x07 else 0x06

def read (e : Encoding) (spec : AttributeSpec) : Decoder Attribute := do
  let form ← resolveForm spec.form
  if form = implicitConstForm then
    match spec.constant with
    | some v => return ⟨spec.name, .signedConstant v⟩
    | none => throw (.unknownForm form)
  else if form = offsetSizedForm e ∧ holdsSectionOffset spec.name then
    return ⟨spec.name, .sectionOffset (← Decoder.offset e)⟩
  else
    match entryForm? e form with
    | some d => return ⟨spec.name, ← d⟩
    | none => throw (.unknownForm form)

/-- The attributes that can be read, and the place behind the last one or what is wrong with the
next. -/
def readAll (e : Encoding) : List AttributeSpec → Cursor → List Attribute × Except DebugError Cursor
  | [], c => ([], .ok c)
  | spec :: specs, c =>
    match read e spec c with
    | .error x => ([], .error x)
    | .ok (a, rest) =>
      let (attributes, after) := readAll e specs rest
      (a :: attributes, after)

end Attribute

/-- An entry of a unit with those of its attributes that can be read. -/
structure Entry where
  tag : Nat
  attributes : List Attribute
  /-- The place behind the entry, or what is wrong with its first attribute that cannot be read. -/
  after : Except DebugError Cursor

namespace Entry

/-- The tag of entries that describe a function. -/
def functionTag : Nat := 0x2e

/-- The next entry. Code zero ends a list of siblings and is no entry. -/
def read (e : Encoding) (abbreviations : Abbreviations) : Decoder (Option Entry) := do
  let code ← Decoder.unsigned
  if code = 0 then return none
  match abbreviations[code]? with
  | none => throw (.unknownAbbreviation code)
  | some a =>
    let (attributes, after) := Attribute.readAll e a.specs (← get)
    return some { tag := a.tag, attributes, after }

/-- The value of the first attribute of a name. It fails when an attribute cannot be read before
one of that name is met. -/
def value? (entry : Entry) (name : Nat) : Except DebugError (Option AttributeValue) :=
  match entry.attributes.find? (·.name = name) with
  | some a => .ok (some a.value)
  | none => entry.after.map fun _ => none

/-- The entries from the cursor on, parents before their children, and why the list ends early if
it does. -/
def readAll (e : Encoding) (abbreviations : Abbreviations) (c : Cursor) :
    List Entry × Option DebugError :=
  if c.atEnd then ([], none)
  else
    match read e abbreviations c with
    | .error x => ([], some x)
    | .ok (none, rest) =>
      if rest.remaining < c.remaining then readAll e abbreviations rest else ([], none)
    | .ok (some entry, _) =>
      match entry.after with
      | .error x => ([entry], some x)
      | .ok rest =>
        if rest.remaining < c.remaining then
          let (entries, ending) := readAll e abbreviations rest
          (entry :: entries, ending)
        else ([entry], none)
termination_by c.remaining

end Entry

end Postmortem.Debug
