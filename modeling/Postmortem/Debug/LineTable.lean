import Std.Data.HashMap
import Postmortem.Debug.Function

/-!
# The line at an address

A line table lists rows of addresses with the lines of source they start. A row covers the
addresses up to the next row; the last row of a sequence covers those up to the sequence's end.
-/
namespace Postmortem.Debug

structure LineRow where
  address : Nat
  line : Nat
  /-- The position of the file in the table's list. -/
  file : Nat
  endSequence : Bool
  deriving DecidableEq, Repr

structure LineMatch where
  file : String
  line : Nat
  /-- The address of the row that was found. -/
  address : Nat
  displacement : Nat
  deriving DecidableEq, Repr

structure LineTable where
  rows : List LineRow
  files : Array String
  deriving Repr

namespace LineRow

/-- The row that covers an address, when `previous` is the row that covers the addresses before the
given rows. Rows at address zero are of removed code and count for nothing. -/
def nearestAfter? (address : Nat) (previous : Option LineRow) : List LineRow → Option LineRow
  | [] => none
  | row :: rows =>
    if row.address = 0 then nearestAfter? address previous rows
    else
      match previous.filter fun p => p.address < address ∧ address < row.address with
      | some p => some p
      | none =>
        if row.endSequence then nearestAfter? address none rows
        else if row.address = address then some row
        else nearestAfter? address (some row) rows

/-- The row that covers an address: one at that very address, or else one whose successor starts
behind it. -/
def nearest? (rows : List LineRow) (address : Nat) : Option LineRow :=
  nearestAfter? address none rows

end LineRow

/-- Whether a path needs no directory: it starts with a separator, or with a letter and a colon
before one. -/
def isAbsolutePath (path : List UInt8) : Bool :=
  let separator (b : UInt8) : Bool := b = 0x2f || b = 0x5c
  match path with
  | a :: b :: c :: _ => separator a || b = 0x3a && separator c
  | a :: _ => separator a
  | [] => false

/-- A path in a directory. The separator is a backslash if the directory has one in it. -/
def joinPath (directory path : String) : String :=
  if directory.isEmpty then path
  else
    let separator := if directory.toList.contains '\\' then '\\' else '/'
    let trimmed := (directory.toList.reverse.dropWhile fun c => c = '/' || c = '\\').reverse
    String.ofList (trimmed ++ separator :: path.toList)

/-- The path of a source file, in its directory unless it is absolute. -/
def LineHeader.path (s : DebugSections) (b : UnitBases) (h : LineHeader) (f : FileEntry) :
    Except DebugError String := do
  let path := Text.lossy (← s.textOf b f.path)
  if isAbsolutePath path.toUTF8.toList then return path
  match h.directory? f.directory with
  | none => return path
  | some d => return joinPath (Text.lossy (← s.textOf b d)) path

namespace LineTable

def empty : LineTable := { rows := [], files := #[] }

def find? (t : LineTable) (address : Nat) : Option LineMatch := do
  let row ← LineRow.nearest? t.rows address
  let file ← t.files[row.file]?
  return { file, line := row.line, address := row.address, displacement := address - row.address }

/-- The rows of sequences that do not start at address zero, which is where linkers leave code they
removed. `dropping` tells whether the rows at hand are of such a sequence, and is `none` at the
start of one. -/
def keepSequences (dropping : Option Bool) : List EmittedRow → List EmittedRow
  | [] => []
  | row :: rows =>
    let dropped := dropping.getD (row.address = 0)
    let rest := keepSequences (if row.endSequence then none else some dropped) rows
    if dropped then rest else row :: rest

/-- Files that have been given a position, by their indices in the line program. -/
structure FileList where
  positions : Std.HashMap Nat Nat := {}
  files : Array String := #[]

/-- The position of a row's file, which is added when the index is new. A file that the program
does not have is listed without a name. -/
def FileList.place (s : DebugSections) (b : UnitBases) (h : LineHeader) (l : FileList)
    (row : EmittedRow) : Except DebugError (Nat × FileList) := do
  match l.positions[row.fileIndex]? with
  | some p => return (p, l)
  | none => do
    let path ← match row.file with
      | some f => h.path s b f
      | none => pure unknownName
    return (l.files.size, ⟨l.positions.insert row.fileIndex l.files.size, l.files.push path⟩)

/-- The table of the given rows. Lines are cut to 32 bits. -/
def ofRows (s : DebugSections) (b : UnitBases) (h : LineHeader) :
    FileList → List EmittedRow → Except DebugError LineTable
  | l, [] => .ok { rows := [], files := l.files }
  | l, row :: rows => do
    let (file, l) ← l.place s b h row
    let t ← ofRows s b h l rows
    return { t with rows := { address := row.address, line := row.line % UInt32.size, file,
                              endSequence := row.endSequence } :: t.rows }

/-- The line table of a unit. -/
def ofUnit (s : DebugSections) (u : CompilationUnit) : Except DebugError LineTable :=
  match u.lineHeader with
  | none => .ok empty
  | some h => do ofRows s u.bases h {} (keepSequences none (← h.rows).toList)

/-- The line table of the unit that starts at an offset of the section. -/
def loadAt (s : DebugSections) (start : Nat) : Except DebugError LineTable := do
  ofUnit s (← CompilationUnit.loadAt s start)

end LineTable

end Postmortem.Debug
