import Postmortem.Debug.Sections

/-!
# Line programs

The rows of a line table are not stored but computed: a program of small instructions moves a set
of registers through the code and emits a row now and then. The rows between two ends of sequence
have addresses that do not decrease. A sequence of code that the linker removed is recognised by
its start address and emits nothing.
-/
namespace Postmortem.Debug

/-- A source file of a line program: its name and the index of its directory. -/
structure FileEntry where
  path : AttributeValue
  directory : Nat

/-- What a program is read with. -/
structure LineHeader where
  encoding : Encoding
  /-- The length of the smallest instruction of the target. -/
  minInstructionLength : Nat
  /-- The number of operations that one instruction of the target can hold. -/
  maxOperations : Nat
  /-- The smallest advance of the line by a special instruction, and the number of advances. -/
  lineBase : Int
  lineRange : Nat
  /-- The first instruction code that is special. -/
  opcodeBase : Nat
  /-- The numbers of operands of the standard instructions. -/
  operandCounts : Bytes
  directories : Array AttributeValue
  files : Array FileEntry
  /-- The directory and the file that index zero stands for before version five. -/
  unitDirectory : Option Bytes
  unitFile : Option FileEntry
  program : Cursor

namespace LineHeader

/-- The next of the texts that end with an empty one. -/
def nextText : Decoder (Option Bytes) := do
  let t ← Decoder.zeroTerminated
  return if t.isEmpty then none else some t

/-- The directories before version five. -/
def readDirectories (found : Array AttributeValue) (c : Cursor) :
    Except DebugError (Array AttributeValue × Cursor) :=
  match nextText c with
  | .error x => .error x
  | .ok (none, rest) => .ok (found, rest)
  | .ok (some t, rest) =>
    if rest.remaining < c.remaining then readDirectories (found.push (.text t)) rest
    else .error .badLineHeader
termination_by c.remaining

/-- The rest of a file entry before version five: its directory, time and size. -/
def readFile (path : Bytes) : Decoder FileEntry := do
  let directory ← Decoder.unsigned
  let _ ← Decoder.unsigned
  let _ ← Decoder.unsigned
  return { path := .text path, directory }

/-- The next file before version five. -/
def nextFile : Decoder (Option FileEntry) := do
  match ← nextText with
  | none => return none
  | some path => return some (← readFile path)

/-- The files before version five. -/
def readFiles (found : Array FileEntry) (c : Cursor) :
    Except DebugError (Array FileEntry × Cursor) :=
  match nextFile c with
  | .error x => .error x
  | .ok (none, rest) => .ok (found, rest)
  | .ok (some f, rest) =>
    if rest.remaining < c.remaining then readFiles (found.push f) rest
    else .error .badLineHeader
termination_by c.remaining

/-- What the parts of an entry of a directory or file list mean, from version five on. -/
structure EntryPart where
  content : Nat
  form : Nat

namespace EntryPart

def path : Nat := 1
def directory : Nat := 2

def readSome : Nat → Decoder (List EntryPart)
  | 0 => return []
  | n + 1 => do
    let content ← Decoder.unsigned
    let form ← Decoder.unsigned16
    return ⟨content, form⟩ :: (← readSome n)

/-- The parts of the entries of one list. Exactly one of them is the path. -/
def readAll : Decoder (List EntryPart) := do
  let parts ← readSome (← Decoder.number 1)
  if (parts.filter (·.content = path)).length ≠ 1 then throw .badLineHeader
  return parts

/-- The values of the parts of one entry. -/
def readValues (e : Encoding) : List EntryPart → Decoder (List (Nat × AttributeValue))
  | [] => return []
  | p :: ps =>
    match sharedForm? e p.form with
    | none => throw (.unknownForm p.form)
    | some d => do
      let v ← d
      return (p.content, v) :: (← readValues e ps)

/-- One entry. The directory is the last one given as a constant, and the first if none is. -/
def readEntry (e : Encoding) (parts : List EntryPart) : Decoder FileEntry := do
  let values ← readValues e parts
  return values.foldl (fun f (content, v) =>
    if content = path then { f with path := v }
    else if content = directory then { f with directory := v.constant?.getD f.directory }
    else f) ⟨.other, 0⟩

def readEntries (e : Encoding) (parts : List EntryPart) (found : Array FileEntry) :
    Nat → Decoder (Array FileEntry)
  | 0 => return found
  | n + 1 => do readEntries e parts (found.push (← readEntry e parts)) n

/-- A list of directories or files with the description of its parts. -/
def readList (e : Encoding) : Decoder (Array FileEntry) := do
  let parts ← readAll
  readEntries e parts #[] (← Decoder.unsigned)

end EntryPart

/-- The header at the cursor, which spans the rest of the section. `name` and `directory` are those
of the unit. -/
def read (addressSize : Nat) (name directory : Option Bytes) : Decoder LineHeader := do
  let (length, wide) ← Decoder.initialLength
  set (← Decoder.split length)
  let version ← Decoder.number 2
  if version < 2 ∨ 5 < version then throw (.unknownVersion version)
  let mut addressSize := addressSize
  if 5 ≤ version then
    addressSize ← Decoder.addressSize
    let segmentSize ← Decoder.number 1
    if segmentSize ≠ 0 then throw (.unsupportedSegmentSize segmentSize)
  let encoding : Encoding := { wide, version, addressSize }
  let header ← Decoder.split (← Decoder.offset encoding)
  let program ← get
  set header
  let minInstructionLength ← Decoder.number 1
  if minInstructionLength = 0 then throw .badLineHeader
  let maxOperations ← if 4 ≤ version then Decoder.number 1 else pure 1
  if maxOperations = 0 then throw .badLineHeader
  Decoder.skip 1
  let lineBase ← Decoder.signedByte
  let lineRange ← Decoder.number 1
  if lineRange = 0 then throw .badLineHeader
  let opcodeBase ← Decoder.number 1
  if opcodeBase = 0 then throw .badLineHeader
  let counts ← Decoder.split (opcodeBase - 1)
  let common : LineHeader := {
    encoding, minInstructionLength, maxOperations, lineBase, lineRange, opcodeBase
    operandCounts := counts.data.extract counts.position counts.stop
    directories := #[], files := #[], unitDirectory := none, unitFile := none, program }
  if 5 ≤ version then
    let directories ← EntryPart.readList encoding
    let files ← EntryPart.readList encoding
    return { common with directories := directories.map (·.path), files }
  else
    let directories ← readDirectories #[]
    let files ← readFiles #[]
    return { common with
      directories, files, unitDirectory := directory
      unitFile := name.map fun n => ⟨.text n, 0⟩ }

/-- The entry of an index of a list. Before version five indices count from one. -/
def numbered? {α : Type} (h : LineHeader) (zeroth : Option α) (list : Array α) (index : Nat) :
    Option α :=
  if 5 ≤ h.encoding.version then list[index]?
  else if index = 0 then zeroth
  else list[index - 1]?

def file? (h : LineHeader) (index : Nat) : Option FileEntry :=
  h.numbered? h.unitFile h.files index

def directory? (h : LineHeader) (index : Nat) : Option AttributeValue :=
  h.numbered? (h.unitDirectory.map .text) h.directories index

end LineHeader

/-- The instructions of a line program. Those that only change what is not recorded in a row are
`none`. -/
inductive LineInstruction where
  | special (opcode : Nat)
  | copy
  | advanceAddress (operations : Nat)
  | advanceLine (lines : Int)
  | setFile (index : Nat)
  | addConstant
  | addFixed (amount : Nat)
  | endSequence
  | setAddress (address : Nat)
  | defineFile (file : FileEntry)
  | none

namespace LineInstruction

/-- Whether an instruction ends a sequence of rows. -/
def endsSequence : LineInstruction → Bool
  | endSequence => true
  | _ => false

/-- Passes over `n` operands. -/
def skipOperands : Nat → Decoder Unit
  | 0 => return ()
  | n + 1 => do
    let _ ← Decoder.unsigned
    skipOperands n

/-- The extended instruction in the cursor. -/
def readExtended (h : LineHeader) : Decoder LineInstruction := do
  match ← Decoder.number 1 with
  | 1 => return endSequence
  | 2 => return setAddress (← Decoder.address h.encoding)
  | 3 =>
    if h.encoding.version ≤ 4 then
      return defineFile (← LineHeader.readFile (← Decoder.zeroTerminated))
    else return none
  | 4 => do
    let _ ← Decoder.unsigned
    return none
  | _ => return none

/-- The next instruction. -/
def read (h : LineHeader) : Decoder LineInstruction := do
  let opcode ← Decoder.number 1
  if opcode = 0 then
    let c ← Decoder.split (← Decoder.unsigned)
    Decoder.readAt (readExtended h) c
  else if h.opcodeBase ≤ opcode then return special opcode
  else
    match opcode with
    | 1 => return copy
    | 2 => return advanceAddress (← Decoder.unsigned)
    | 3 => return advanceLine (← Decoder.signed)
    | 4 => return setFile (← Decoder.unsigned)
    | 5 => do
      let _ ← Decoder.unsigned
      return none
    | 6 | 7 | 8 => return if opcode = 8 then addConstant else none
    | 9 => return addFixed (← Decoder.number 2)
    | 10 | 11 => return none
    | 12 => do
      let _ ← Decoder.unsigned
      return none
    | _ =>
      match h.operandCounts[opcode - 1]? with
      | some n => do
        skipOperands n.toNat
        return none
      | .none => throw .endOfData

end LineInstruction

/-- A row as the program emits it. -/
structure EmittedRow where
  address : Nat
  line : Nat
  fileIndex : Nat
  /-- The file of that index when the row was emitted. -/
  file : Option FileEntry
  endSequence : Bool

/-- The registers of a line program. -/
structure LineRegisters where
  address : Nat := 0
  /-- The operation within the target's instruction at the address. -/
  operation : Nat := 0
  file : Nat := 1
  line : Nat := 1
  /-- Whether the current code was removed, so that no row is emitted. -/
  removed : Bool := false

namespace LineRegisters

/-- Moves the line. It stops at zero and starts again after the largest 64-bit number. -/
def advanceLine (r : LineRegisters) (lines : Int) : LineRegisters :=
  if lines < 0 then { r with line := r.line - (-lines).toNat }
  else { r with line := (r.line + lines.toNat) % UInt64.size }

/-- Moves the address, which has to fit the target. -/
def addAddress (r : LineRegisters) (h : LineHeader) (amount : Nat) :
    Except DebugError LineRegisters :=
  if r.address + amount < addressLimit h.encoding.addressSize then
    .ok { r with address := r.address + amount }
  else .error .addressOverflow

/-- Moves the address by a number of operations of the target. -/
def advanceAddress (r : LineRegisters) (h : LineHeader) (operations : Nat) :
    Except DebugError LineRegisters :=
  if r.removed then .ok r
  else
    let total :=
      if h.maxOperations = 1 then operations else (r.operation + operations) % UInt64.size
    let r := { r with operation := total % h.maxOperations }
    r.addAddress h (h.minInstructionLength * (total / h.maxOperations) % UInt64.size)

/-- What one instruction does: the registers and the files after it, and whether it emits a row. -/
def execute (r : LineRegisters) (h : LineHeader) :
    LineInstruction → Except DebugError (LineRegisters × Bool)
  | .special opcode => do
    let adjusted := opcode - h.opcodeBase
    let r := r.advanceLine (h.lineBase + (adjusted % h.lineRange : Nat))
    return (← r.advanceAddress h (adjusted / h.lineRange), true)
  | .copy => .ok (r, true)
  | .advanceAddress operations => do return (← r.advanceAddress h operations, false)
  | .advanceLine lines => .ok (r.advanceLine lines, false)
  | .setFile index => .ok ({ r with file := index }, false)
  | .addConstant => do
    return (← r.advanceAddress h ((255 - h.opcodeBase) / h.lineRange), false)
  | .addFixed amount =>
    if r.removed then .ok (r, false)
    else do return ({ ← r.addAddress h amount with operation := 0 }, false)
  | .endSequence => .ok (r, true)
  | .setAddress address =>
    if address < r.address ∨ tombstone h.encoding.addressSize ≤ address then
      .ok ({ r with removed := true }, false)
    else .ok ({ r with address, operation := 0, removed := false }, false)
  | .defineFile _ | .none => .ok (r, false)

/-- The row that the registers stand for. -/
def row (r : LineRegisters) (h : LineHeader) (endSequence : Bool) : EmittedRow :=
  { address := r.address, line := r.line, fileIndex := r.file, file := h.file? r.file, endSequence }

end LineRegisters

namespace LineHeader

/-- The header after an instruction: a program may add files. -/
def after (h : LineHeader) : LineInstruction → LineHeader
  | .defineFile f => { h with files := h.files.push f }
  | _ => h

/-- The rows that the rest of a program emits, after those in `emitted`. -/
def run (h : LineHeader) (r : LineRegisters) (emitted : Array EmittedRow) (c : Cursor) :
    Except DebugError (Array EmittedRow) :=
  if c.atEnd then .ok emitted
  else
    match LineInstruction.read h c with
    | .error x => .error x
    | .ok (i, rest) =>
      match r.execute h i with
      | .error x => .error x
      | .ok (r', emits) =>
        let emitted :=
          if emits && !r'.removed then emitted.push (r'.row h i.endsSequence) else emitted
        if rest.remaining < c.remaining then
          run (h.after i) (if i.endsSequence then {} else r') emitted rest
        else .ok emitted
termination_by c.remaining

/-- The rows of the program. -/
def rows (h : LineHeader) : Except DebugError (Array EmittedRow) := h.run {} #[] h.program

end LineHeader

end Postmortem.Debug
