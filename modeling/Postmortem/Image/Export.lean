import Std.Data.HashMap
import Postmortem.Image.Symbol

/-!
# Exported functions

The export directory lists the functions other images can call: a table of addresses, in which an
entry's position gives its ordinal, and two parallel tables of names and of the positions they
name. An address inside the directory itself is no code but the text `library.function` of the
function it stands for.
-/
namespace Postmortem

structure ExportEntry where
  name : Option String
  ordinal : UInt32
  rva : UInt32
  forwarder : Option String
  deriving DecidableEq, Repr

namespace ExportEntry

/-- Whether the entry names code of this image. -/
def isNamedCode (e : ExportEntry) : Bool := e.name.isSome && e.forwarder.isNone

end ExportEntry

/-- The exports of an image, those with smaller addresses first. -/
structure ExportTable where
  libraryName : Option String
  ordinalBase : UInt32
  entries : Array ExportEntry
  deriving Repr

namespace ExportTable

def empty : ExportTable := { libraryName := none, ordinalBase := 0, entries := #[] }

def named? (t : ExportTable) (name : String) : Option ExportEntry :=
  t.entries.find? (·.name = some name)

/-- The last of the first `n` entries that names code. -/
def lastNamedCode? (entries : Array ExportEntry) : Nat → Option ExportEntry
  | 0 => none
  | n + 1 =>
    match entries[n]? with
    | some e => if e.isNamedCode then some e else lastNamedCode? entries n
    | none => lastNamedCode? entries n

/-- The named function that starts closest before `rva` or at it, and the distance. -/
def nearest? (t : ExportTable) (rva : UInt32) : Option (ExportEntry × UInt32) := do
  let starts (i : Nat) : Bool :=
    match t.entries[i]? with
    | some e => e.rva ≤ rva
    | none => false
  let e ← lastNamedCode? t.entries (partitionPoint t.entries.size starts)
  return (e, rva - e.rva)

/-- The longest library name and forwarder text, and the longest function name. -/
def textLimit : Nat := 256
def nameLimit : Nat := 512

/-- The fields of the export directory. -/
structure Directory where
  nameRva : UInt32
  ordinalBase : UInt32
  functionCount : UInt32
  nameCount : UInt32
  functionsRva : UInt32
  namesRva : UInt32
  ordinalsRva : UInt32
  deriving Repr

def Directory.size : Nat := 40

def Directory.read (b : Bytes) (offset : Nat) : Except ImageError Directory := do
  if b.size < cappedEnd offset size then throw .badExportDirectory
  let field (at_ : Nat) : Except ImageError UInt32 :=
    match b.u32? (offset + at_) with
    | some v => .ok v
    | none => .error (.badOffset (offset + at_))
  return { nameRva := ← field 12, ordinalBase := ← field 16, functionCount := ← field 20,
           nameCount := ← field 24, functionsRva := ← field 28, namesRva := ← field 32,
           ordinalsRva := ← field 36 }

/-- The leading entries of the address table that lie in the buffer, at most `n`. -/
def readAddresses (b : Bytes) (offset : Nat) : Nat → List UInt32
  | 0 => []
  | n + 1 =>
    match b.u32? offset with
    | some rva => rva :: readAddresses b (offset + 4) n
    | none => []

/-- The names that the next `n` entries of the name and ordinal tables give to positions of the
address table. The tables end where one of them leaves the buffer; an entry whose name cannot be
read is passed over. -/
def readNames (b : Bytes) (sections : SectionTable) (nameAt ordinalAt : Nat) :
    Nat → List (Nat × String)
  | 0 => []
  | n + 1 =>
    match b.u32? nameAt, b.u16? ordinalAt with
    | some rva, some position =>
      let rest := readNames b sections (nameAt + 4) (ordinalAt + 2) n
      match (do b.text? (← sections.offset? rva) nameLimit) with
      | some name => (position.toNat, name) :: rest
      | none => rest
    | _, _ => []

/-- The text that an address inside the export directory stands for. -/
def forwarder? (b : Bytes) (sections : SectionTable) (directory : DataDirectory) (rva : UInt32) :
    Option String := do
  guard (directory.contains rva)
  b.text? (← sections.offset? rva) textLimit

/-- The entries of the address table, without unused ones. Of several names for one position the
last is taken. -/
def entriesOf (b : Bytes) (sections : SectionTable) (directory : DataDirectory)
    (ordinalBase : UInt32) (names : Std.HashMap Nat String) (addresses : List UInt32) :
    List ExportEntry :=
  addresses.zipIdx.filterMap fun (rva, position) =>
    if rva = 0 then none
    else some {
      name := names[position]?
      ordinal := ordinalBase + UInt32.ofNat position
      rva
      forwarder := forwarder? b sections directory rva }

/-- The exports of the image in `b`. -/
def read (b : Bytes) (sections : SectionTable) (directory : DataDirectory) (maxExports : Nat) :
    Except ImageError ExportTable := do
  if !directory.isPresent then return empty
  let translate (rva : UInt32) : Except ImageError Nat :=
    match sections.offset? rva with
    | some offset => .ok offset
    | none => .error (.unmappedRva rva)
  let d ← Directory.read b (← translate directory.rva)
  let limit := UInt32.ofNat maxExports
  let libraryName ←
    if d.nameRva = 0 then pure none
    else do pure (b.text? (← translate d.nameRva) textLimit)
  let addresses := readAddresses b (← translate d.functionsRva) (min d.functionCount limit).toNat
  let nameCount := min d.nameCount limit
  let names ←
    if 0 < nameCount ∧ d.namesRva ≠ 0 ∧ d.ordinalsRva ≠ 0 then do
      let nameAt ← translate d.namesRva
      let ordinalAt ← translate d.ordinalsRva
      pure (readNames b sections nameAt ordinalAt nameCount.toNat)
    else pure []
  let entries := entriesOf b sections directory d.ordinalBase (Std.HashMap.ofList names) addresses
  return { libraryName, ordinalBase := d.ordinalBase
           entries := (entries.mergeSort fun e f => e.rva ≤ f.rva).toArray }

end ExportTable

end Postmortem
