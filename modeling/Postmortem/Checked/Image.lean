import Postmortem.Checked.Export
import Postmortem.Checked.Header
import Postmortem.Checked.Symbol

/-!
# Images in checked arithmetic
-/
namespace Postmortem.Checked

def parse (data : Bytes) (options : ImageOptions) (path : Option String) : Reader Image := do
  let dos ← DosHeader.read data
  let start := dos.headersAt.toNat
  let headers ← headers data start
  let sectionHeaders ← sectionHeaders data
    (← offset (start + Headers.optionalAt + headers.file.optionalHeaderSize.toNat))
    headers.file.sectionCount
  let symbolTable ←
    match options.layout with
    | .file => locate data headers.file options.maxSymbols
    | .memory => pure none
  let sections ← sections sectionHeaders (symbolTable.map (·.strings data)) options.layout
  return { data, path, dos, headers, symbolTable, options,
           sections := .ofList sections options.layout }

def functions (image : Image) : Option (List FunctionSymbol) :=
  match image.symbolTable with
  | some t => do
    functionsOf (t.strings image.data) image.sections image.base (← recordsFrom t image.data 0)
  | none => return []

def nearestFunction (image : Image) (address : UInt64) : Option (Option SymbolMatch) := do
  (← functions image).foldlM (closer (!image.is64Bit) address) none

def exports (image : Image) : Reader ExportTable :=
  exportTable image.data image.sections ((image.directory? 0).getD .empty) image.options.maxExports

def nearestIn (image : Image) (rva : UInt32) (table : ExportTable) :
    Option (Option SymbolMatch) := do
  let some (entry, displacement) ← nearestEntry table rva | return none
  let some name := entry.name | return none
  return some { name, address := ← add64 image.base entry.rva.toUInt64,
                displacement := displacement.toUInt64 }

def nearestExport (image : Image) (address : UInt64) : Option (Option SymbolMatch) := do
  let some rva := image.rvaOf? address | return none
  let .ok table ← (exports image).run | return none
  nearestIn image rva table

def nearestSymbol (image : Image) (address : UInt64) : Option (Option SymbolMatch) := do
  return Image.nearer? (← nearestExport image address) (← nearestFunction image address)

end Postmortem.Checked
