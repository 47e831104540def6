import Postmortem.Image.Section

/-!
# The symbol table of an image

Some linkers leave a table of symbols in the file, followed by a table of the strings that do not
fit in a record. Records that describe a function carry a name, a section number and an offset in
that section.
-/
namespace Postmortem

/-- How much of an image is read. -/
structure ImageOptions where
  layout : ImageLayout := .file
  maxSymbols : Nat := 4000000
  maxExports : Nat := 65536
  deriving Repr

/-- A function record of the symbol table. -/
structure FunctionSymbol where
  name : String
  /-- The address of the function in an image that is loaded at its preferred base. -/
  address : UInt64
  sectionNumber : Int16
  storageClass : UInt8
  deriving DecidableEq, Repr

/-- The nearest symbol that starts at or before an address. -/
structure SymbolMatch where
  name : String
  address : UInt64
  displacement : UInt64
  deriving DecidableEq, Repr

/-- The name of a function as it is matched: section labels start with a dot and have none, and
on 32-bit processors one leading underscore is not part of it. -/
def FunctionSymbol.matchName? (stripUnderscore : Bool) (s : FunctionSymbol) : Option String :=
  match s.name.toList with
  | [] => none
  | '.' :: _ => none
  | c :: rest =>
    if stripUnderscore && c = '_' then
      if rest.isEmpty then none else some (String.ofList rest)
    else some s.name

namespace SymbolMatch

/-- The function that starts closest before `address` or at it. Of several that start at one
address the first in the list is taken. -/
def nearest? (stripUnderscore : Bool) (address : UInt64) (functions : List FunctionSymbol) :
    Option SymbolMatch :=
  functions.foldl (fun best s =>
    if address < s.address then best
    else
      match s.matchName? stripUnderscore with
      | none => best
      | some name =>
        let found : SymbolMatch := ⟨name, s.address, address - s.address⟩
        match best with
        | none => some found
        | some b => if found.displacement < b.displacement then some found else best) none

end SymbolMatch

/-- Where the symbol table and the string table after it are. -/
structure SymbolTable where
  offset : Nat
  count : Nat
  stringsStart : Nat
  stringsStop : Nat
  deriving DecidableEq, Repr

namespace SymbolTable

def recordSize : Nat := 18

/-- The longest name that is read from the string table. -/
def nameLimit : Nat := 1024

/-- The bits of a record's type that tell a function. -/
def isFunctionType (type : UInt16) : Bool := type &&& 0x30 = 0x20

/-- The symbol table that the file header describes, if it describes one. Both tables have to lie
in the buffer. The size of the string table counts its own four bytes. -/
def locate (b : Bytes) (h : FileHeader) (maxSymbols : Nat) :
    Except ImageError (Option SymbolTable) := do
  if h.symbolsAt = 0 ∨ h.symbolCount = 0 then return none
  let offset := h.symbolsAt.toNat
  let size := h.symbolCount.toNat * recordSize
  checkTable .symbols offset size b.size
  let stringsStart := offset + size
  checkTable .strings stringsStart 4 b.size
  let stringsSize := max ((b.u32? stringsStart).getD 0).toNat 4
  checkTable .strings stringsStart stringsSize b.size
  return some { offset, count := min h.symbolCount.toNat maxSymbols, stringsStart,
                stringsStop := stringsStart + stringsSize }

/-- The string table with its size field. -/
def strings (t : SymbolTable) (b : Bytes) : Bytes :=
  (b.range? t.stringsStart t.stringsStop).getD .empty

/-- The name of a record: eight bytes in place, or four zero bytes and an offset into the string
table. -/
def recordName? (strings record : Bytes) : Option String := do
  let field ← record.slice? 0 8
  if (← field.u32? 0) = 0 then strings.text? (← field.u32? 4).toNat nameLimit
  else return Text.lossy (Bytes.beforeZero field)

/-- The function that a record describes, if it is a function of a known section and has a
name. The sum that is its address wraps around, as in a build that does not check its arithmetic;
`Checked.function` is the one that does. -/
def function? (strings : Bytes) (sections : SectionTable) (imageBase : UInt64) (record : Bytes) :
    Option FunctionSymbol := do
  guard (isFunctionType (← record.u16? 14))
  let sectionNumber ← record.i16? 12
  let s ← sections.numbered? sectionNumber
  let name ← recordName? strings record
  let value ← record.u32? 8
  let storageClass ← record.u8? 16
  return { name, address := imageBase + s.header.rva.toUInt64 + value.toUInt64, sectionNumber,
           storageClass }

/-- The records from number `index` on, without those that only continue the one before them. -/
def recordsFrom (t : SymbolTable) (b : Bytes) (index : Nat) : List Bytes :=
  if index < t.count then
    match b.slice? (t.offset + index * recordSize) recordSize with
    | none => []
    | some record =>
      record :: recordsFrom t b (index + 1 + ((record.u8? 17).getD 0).toNat)
  else []
termination_by t.count - index

/-- The functions of the table in record order. -/
def functions (t : SymbolTable) (b : Bytes) (sections : SectionTable) (imageBase : UInt64) :
    List FunctionSymbol :=
  let strings := t.strings b
  (t.recordsFrom b 0).filterMap (function? strings sections imageBase)

end SymbolTable

end Postmortem
