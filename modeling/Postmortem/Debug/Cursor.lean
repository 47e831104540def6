import Postmortem.Bytes

/-!
# Reading debug information

A cursor is a place in a debug section together with the end of what may be read. Decoders move it
forward; they fail instead of reading past that end. Loops over a section run until nothing
remains, and stop being loops when a step does not make the remainder shorter.
-/
namespace Postmortem.Debug

/-- Why debug information cannot be decoded. -/
inductive DebugError where
  | endOfData
  | numberTooLarge
  | reservedLength (value : Nat)
  | unknownVersion (version : Nat)
  | unsupportedAddressSize (size : Nat)
  | unsupportedSegmentSize (size : Nat)
  | unsupportedUnit (type : Nat)
  | badAbbreviation
  | duplicateAbbreviation (code : Nat)
  | unknownAbbreviation (code : Nat)
  | unknownForm (form : Nat)
  | unexpectedForm
  | missingRoot
  | badReference (offset : Nat)
  | unknownRangeEntry (kind : Nat)
  | badLineHeader
  | addressOverflow
  deriving DecidableEq, Repr

def DebugError.message : DebugError → String
  | endOfData => "the section ends too early"
  | numberTooLarge => "a number does not fit"
  | reservedLength value => s!"length {value} is reserved"
  | unknownVersion version => s!"version {version} is unknown"
  | unsupportedAddressSize size => s!"addresses of {size} bytes are not supported"
  | unsupportedSegmentSize size => s!"segments of {size} bytes are not supported"
  | unsupportedUnit type => s!"unit type {type} is not supported"
  | badAbbreviation => "malformed abbreviation"
  | duplicateAbbreviation code => s!"abbreviation {code} is declared twice"
  | unknownAbbreviation code => s!"abbreviation {code} is not declared"
  | unknownForm form => s!"form {form} is unknown"
  | unexpectedForm => "an attribute has an unexpected form"
  | missingRoot => "a unit has no entries"
  | badReference offset => s!"no entry at offset {offset}"
  | unknownRangeEntry kind => s!"range list entry {kind} is unknown"
  | badLineHeader => "malformed line program header"
  | addressOverflow => "an address does not fit"

/-- A place in a debug section and the end of what may be read from there. -/
structure Cursor where
  data : Bytes
  position : Nat
  stop : Nat

namespace Cursor

/-- A cursor over a whole section. -/
def ofSection (data : Bytes) : Cursor := ⟨data, 0, data.size⟩

/-- The number of bytes that may still be read. -/
def remaining (c : Cursor) : Nat := c.stop - c.position

def atEnd (c : Cursor) : Bool := c.stop ≤ c.position

end Cursor

/-- Reads something at a cursor and moves the cursor behind it. -/
abbrev Decoder (α : Type) := StateT Cursor (Except DebugError) α

/-- How numbers are written in one unit: in the wide format offsets and lengths have eight bytes
instead of four. -/
structure Encoding where
  wide : Bool
  version : Nat
  addressSize : Nat
  deriving DecidableEq, Repr

/-- The number of bytes of an offset. -/
def Encoding.offsetSize (e : Encoding) : Nat := if e.wide then 8 else 4

/-- One more than the largest address of `size` bytes. -/
def addressLimit (size : Nat) : Nat := 1 <<< (8 * size)

/-- The first of the addresses that linkers leave in place of code they removed. -/
def tombstone (size : Nat) : Nat := addressLimit size - 2

namespace Decoder

/-- Passes `n` bytes over. -/
def skip (n : Nat) : Decoder Unit := fun c =>
  if n ≤ c.remaining then .ok ((), { c with position := c.position + n }) else .error .endOfData

/-- The next `n` bytes as one number, least significant byte first. -/
def number (n : Nat) : Decoder Nat := fun c =>
  if n ≤ c.remaining then
    match c.data.number? c.position n with
    | some v => .ok (v, { c with position := c.position + n })
    | none => .error .endOfData
  else .error .endOfData

/-- The next byte as a number between -128 and 127. -/
def signedByte : Decoder Int := do return Int.bmod (← number 1) 256

/-- A cursor over the next `n` bytes, which are passed over. -/
def split (n : Nat) : Decoder Cursor := fun c =>
  if n ≤ c.remaining then
    .ok ({ c with stop := c.position + n }, { c with position := c.position + n })
  else .error .endOfData

/-- The bytes before the next zero byte, which is passed over with them. -/
def zeroTerminated : Decoder Bytes := fun c =>
  let last := c.data.zeroIndex c.position c.stop
  if last < c.stop then .ok (c.data.extract c.position last, { c with position := last + 1 })
  else .error .endOfData

/-- A number in base 128, least significant digit first, in which all bytes but the last have their
high bit set. After `n` digits one more may follow, which is at most `last`. -/
def digits (last : Nat) : Nat → Decoder Nat
  | 0 => do
    let b ← number 1
    if b ≤ last then return b else throw .numberTooLarge
  | n + 1 => do
    let b ← number 1
    if b < 128 then return b
    else return b - 128 + 128 * (← digits last n)

/-- An unsigned number of at most 64 bits in base 128. -/
def unsigned : Decoder Nat := digits 1 9

/-- An unsigned number of at most 16 bits in base 128. -/
def unsigned16 : Decoder Nat := digits 3 2

/-- The signed counterpart of `digits`: the highest bit of the last digit is the sign. -/
def signedDigits : Nat → Decoder Int
  | 0 => do
    let b ← number 1
    if b = 0 then return 0
    else if b = 127 then return -1
    else throw .numberTooLarge
  | n + 1 => do
    let b ← number 1
    if b < 64 then return b
    else if b < 128 then return (b : Int) - 128
    else return (b : Int) - 128 + 128 * (← signedDigits n)

/-- A signed number of at most 64 bits in base 128. -/
def signed : Decoder Int := signedDigits 9

/-- A length at the start of a unit or table, and whether it announces the wide format. -/
def initialLength : Decoder (Nat × Bool) := do
  let v ← number 4
  if v < 0xfffffff0 then return (v, false)
  else if v = 0xffffffff then return (← number 8, true)
  else throw (.reservedLength v)

/-- The size of addresses. -/
def addressSize : Decoder Nat := do
  let size ← number 1
  if size = 1 ∨ size = 2 ∨ size = 4 ∨ size = 8 then return size
  else throw (.unsupportedAddressSize size)

/-- An offset into a section. -/
def offset (e : Encoding) : Decoder Nat := number e.offsetSize

def address (e : Encoding) : Decoder Nat := number e.addressSize

/-- What `d` reads at `c`. -/
def readAt {α : Type} (d : Decoder α) (c : Cursor) : Except DebugError α := (d c).map (·.1)

/-- What `d` reads at an offset of a section. -/
def readSection {α : Type} (d : Decoder α) (data : Bytes) (start : Nat) : Except DebugError α :=
  readAt (do skip start; d) (.ofSection data)

end Decoder

end Postmortem.Debug
