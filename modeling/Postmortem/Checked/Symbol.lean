import Postmortem.Checked.Section

/-!
# The symbol table in checked arithmetic

The base of an image is a number of 64 bits that the image is free to state, so the address of a
function can be too large. The table is read no further then.
-/
namespace Postmortem.Checked

def locate (b : Bytes) (h : FileHeader) (maxSymbols : Nat) : Reader (Option SymbolTable) := do
  if h.symbolsAt = 0 ∨ h.symbolCount = 0 then return none
  let start := h.symbolsAt.toNat
  let size ← offset (h.symbolCount.toNat * SymbolTable.recordSize)
  checkTable .symbols start size b.size
  let stringsStart ← offset (start + size)
  checkTable .strings stringsStart 4 b.size
  let stringsSize := max ((b.u32? stringsStart).getD 0).toNat 4
  checkTable .strings stringsStart stringsSize b.size
  return some { offset := start, count := min h.symbolCount.toNat maxSymbols, stringsStart,
                stringsStop := ← offset (stringsStart + stringsSize) }

/-- The base, the address of a section and a place in it, added up. -/
def address (base : UInt64) (rva value : UInt32) : Option UInt64 := do
  add64 (← add64 base rva.toUInt64) value.toUInt64

def function (strings : Bytes) (sections : SectionTable) (imageBase : UInt64) (record : Bytes) :
    Option (Option FunctionSymbol) := do
  let some type := record.u16? 14 | return none
  if !SymbolTable.isFunctionType type then return none
  let some sectionNumber := record.i16? 12 | return none
  let some s ← numbered sections sectionNumber | return none
  let some name := SymbolTable.recordName? strings record | return none
  let some value := record.u32? 8 | return none
  let some storageClass := record.u8? 16 | return none
  let address ← address imageBase s.header.rva value
  return some { name, address, sectionNumber, storageClass }

/-- The records from number `index` on, without those that only continue the one before them. -/
def recordsFrom (t : SymbolTable) (b : Bytes) (index : Nat) : Option (List Bytes) :=
  if index < t.count then do
    let some record := b.slice? (← offset (t.offset + index * SymbolTable.recordSize))
      SymbolTable.recordSize | return []
    let _ ← offset (index + 1 + ((record.u8? 17).getD 0).toNat)
    return record :: (← recordsFrom t b (index + 1 + ((record.u8? 17).getD 0).toNat))
  else return []
termination_by t.count - index

/-- The functions among some records. -/
def functionsOf (strings : Bytes) (sections : SectionTable) (imageBase : UInt64) :
    List Bytes → Option (List FunctionSymbol)
  | [] => return []
  | record :: rest => do
    let found ← function strings sections imageBase record
    return found.toList ++ (← functionsOf strings sections imageBase rest)

/-- The closer one of the best match so far and a function. -/
def closer (stripUnderscore : Bool) (address : UInt64) (best : Option SymbolMatch)
    (s : FunctionSymbol) : Option (Option SymbolMatch) :=
  if address < s.address then return best
  else
    match s.matchName? stripUnderscore with
    | none => return best
    | some name => do
      let found : SymbolMatch := ⟨name, s.address, ← sub64 address s.address⟩
      match best with
      | none => return some found
      | some b => return if found.displacement < b.displacement then some found else best

end Postmortem.Checked
