import Postmortem.Bisect
import Postmortem.Image.Header
import Postmortem.Text.Lossy
import Postmortem.Text.Numeral

/-!
# Sections

A section header names a range of the loaded image and the bytes of the file that fill it. The
table keeps the sections in address order, so that an address relative to the image base (an RVA)
is found by halving; section numbers still follow the order of the headers.
-/
namespace Postmortem

/-- Where the bytes of a section are: where the file keeps them, or where the loader puts them. -/
inductive ImageLayout where
  | file
  | memory
  deriving DecidableEq, Repr, Inhabited

structure SectionHeader where
  /-- The name field: eight bytes, filled up with zeros. -/
  nameField : Bytes
  virtualSize : UInt32
  rva : UInt32
  rawSize : UInt32
  rawAt : UInt32
  characteristics : UInt32

namespace SectionHeader

def size : Nat := 40

/-- The name as the field holds it. A long name appears as a slash and a number. -/
def shortName (h : SectionHeader) : String := Text.lossy h.nameField.beforeZero

/-- Where the string table has the long name, if the field says so. -/
def longNameAt? (h : SectionHeader) : Option Nat :=
  match h.shortName.toList with
  | '/' :: digits => Text.signedDecimal? digits
  | _ => none

/-- The size of the section in the loaded image. -/
def extent (h : SectionHeader) : UInt32 := max h.virtualSize h.rawSize

def contains (h : SectionHeader) (rva : UInt32) : Bool := h.rva ≤ rva && rva - h.rva < h.extent

/-- Places the section before, at or after `rva`. -/
def compareTo (h : SectionHeader) (rva : UInt32) : Ordering :=
  if rva < h.rva then .gt
  else if h.extent ≤ rva - h.rva then .lt
  else .eq

/-- Where the file has the byte at `rva`, which the section contains. The part of a section that
is larger than its bytes in the file is filled with zeros and is nowhere in the file. -/
def fileOffset? (h : SectionHeader) (rva : UInt32) : Option Nat :=
  let delta := rva - h.rva
  if delta < h.rawSize then some (h.rawAt.toNat + delta.toNat) else none

/-- Where the bytes of the section start and stop in a buffer of the given layout. In a file they
are padded, so a smaller virtual size that is not zero is their true size. -/
def bounds (h : SectionHeader) : ImageLayout → Nat × Nat
  | .file =>
    let size := if h.virtualSize = 0 then h.rawSize else min h.virtualSize h.rawSize
    (h.rawAt.toNat, h.rawAt.toNat + size.toNat)
  | .memory => (h.rva.toNat, h.rva.toNat + h.extent.toNat)

def read (b : Bytes) (offset : Nat) : Except ImageError SectionHeader := do
  let stop := offset + size
  let nameField ← requireField (b.slice? offset 8) stop b.size
  let virtualSize ← requireField (b.u32? (offset + 8)) stop b.size
  let rva ← requireField (b.u32? (offset + 12)) stop b.size
  let rawSize ← requireField (b.u32? (offset + 16)) stop b.size
  let rawAt ← requireField (b.u32? (offset + 20)) stop b.size
  let characteristics ← requireField (b.u32? (offset + 36)) stop b.size
  return { nameField, virtualSize, rva, rawSize, rawAt, characteristics }

/-- The `n` headers from `offset` on. -/
def readFrom (b : Bytes) (offset : Nat) : Nat → Except ImageError (List SectionHeader)
  | 0 => .ok []
  | n + 1 => do
    let h ← read b offset
    let rest ← readFrom b (offset + size) n
    return h :: rest

/-- The section table at `offset`. -/
def readAll (b : Bytes) (offset : Nat) (count : UInt16) :
    Except ImageError (List SectionHeader) := do
  checkTable .sections offset (count.toNat * size) b.size
  readFrom b offset count.toNat

end SectionHeader

/-- A section with its full name and the range of its bytes in the buffer. -/
structure Section where
  name : String
  /-- The position of the header in the table. Section numbers are one more. -/
  index : Nat
  header : SectionHeader
  start : Nat
  stop : Nat

namespace Section

/-- The longest name that is read from the string table. -/
def longNameLimit : Nat := 256

/-- The section of a header. `strings` is the string table, if the image has one. -/
def ofHeader (strings : Option Bytes) (layout : ImageLayout) (index : Nat) (h : SectionHeader) :
    Section :=
  let long := do (← strings).text? (← h.longNameAt?) longNameLimit
  let bounds := h.bounds layout
  { name := long.getD h.shortName, index, header := h, start := bounds.1, stop := bounds.2 }

def ofHeaders (headers : List SectionHeader) (strings : Option Bytes) (layout : ImageLayout) :
    List Section :=
  headers.mapIdx (ofHeader strings layout)

/-- The bytes of the section, when they lie in the image. -/
def data? (s : Section) (image : Bytes) : Option Bytes := image.range? s.start s.stop

end Section

/-- The sections of an image in address order. -/
structure SectionTable where
  sections : Array Section
  layout : ImageLayout

namespace SectionTable

def ofList (sections : List Section) (layout : ImageLayout) : SectionTable :=
  { sections := (sections.mergeSort fun s t => s.header.rva ≤ t.header.rva).toArray, layout }

def named? (t : SectionTable) (name : String) : Option Section :=
  t.sections.find? (·.name = name)

def containing? (t : SectionTable) (rva : UInt32) : Option Section :=
  t.sections.find? (·.header.contains rva)

/-- The section with a number that counts the headers from one. -/
def numbered? (t : SectionTable) (number : Int16) : Option Section :=
  if number ≤ 0 then none else t.sections.find? fun s => s.index + 1 = number.toInt.toNat

/-- Where the buffer has the byte at `rva`. -/
def offset? (t : SectionTable) (rva : UInt32) : Option Nat :=
  match t.layout with
  | .memory => some rva.toNat
  | .file => do
    let place (i : Nat) : Ordering :=
      match t.sections[i]? with
      | some s => s.header.compareTo rva
      | none => .gt
    let i ← bisectFind? t.sections.size place
    let s ← t.sections[i]?
    s.header.fileOffset? rva

end SectionTable

end Postmortem
