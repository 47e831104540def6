import Postmortem.Image.Export

/-!
# Images

An image is the byte buffer together with its headers, sections and symbol table. Everything it
answers is read from that buffer, so an image never refers to a byte that is not there.
-/
namespace Postmortem

structure Image where
  data : Bytes
  /-- The file the image was read from. -/
  path : Option String
  dos : DosHeader
  headers : Headers
  sections : SectionTable
  symbolTable : Option SymbolTable
  options : ImageOptions

namespace Image

/-- Reads an image. A loader does not map the symbol table, so only the file layout has one. -/
def parse (data : Bytes) (options : ImageOptions) (path : Option String) :
    Except ImageError Image := do
  let dos ← DosHeader.read data
  let start := dos.headersAt.toNat
  let headers ← Headers.read data start
  let sectionHeaders ← SectionHeader.readAll data
    (start + Headers.optionalAt + headers.file.optionalHeaderSize.toNat) headers.file.sectionCount
  let symbolTable ←
    match options.layout with
    | .file => SymbolTable.locate data headers.file options.maxSymbols
    | .memory => pure none
  let sections := Section.ofHeaders sectionHeaders (symbolTable.map (·.strings data))
    options.layout
  return { data, path, dos, headers, symbolTable, options,
           sections := .ofList sections options.layout }

/-- Reads an image that is laid out as in a file. -/
def ofFileBytes (data : Bytes) : Except ImageError Image := parse data {} none

/-- Reads an image that was copied out of a process. -/
def ofMemoryBytes (data : Bytes) : Except ImageError Image :=
  parse data { layout := .memory } none

def machine (image : Image) : Machine := image.headers.file.machine

def is64Bit (image : Image) : Bool := image.headers.optional.is64Bit

/-- The address the image prefers to be loaded at. -/
def base (image : Image) : UInt64 := image.headers.optional.imageBase

def sizeOfImage (image : Image) : UInt32 := image.headers.optional.sizeOfImage

def section? (image : Image) (name : String) : Option Section := image.sections.named? name

/-- The bytes of the section of the given name, when it has one and they lie in the buffer. -/
def sectionData? (image : Image) (name : String) : Option Bytes := do
  (← image.section? name).data? image.data

def offset? (image : Image) (rva : UInt32) : Option Nat := image.sections.offset? rva

def directory? (image : Image) (i : Nat) : Option DataDirectory := image.headers.directories[i]?

/-- Whether there is a symbol table with at least one record in it. -/
def hasSymbols (image : Image) : Bool := image.symbolTable.any fun t => t.count != 0

/-- The functions of the symbol table. -/
def functions (image : Image) : List FunctionSymbol :=
  match image.symbolTable with
  | some t => t.functions image.data image.sections image.base
  | none => []

/-- The function of the symbol table that starts closest before `address` or at it. -/
def nearestFunction? (image : Image) (address : UInt64) : Option SymbolMatch :=
  SymbolMatch.nearest? (!image.is64Bit) address image.functions

def exports (image : Image) : Except ImageError ExportTable :=
  ExportTable.read image.data image.sections ((image.directory? 0).getD .empty)
    image.options.maxExports

/-- The distance of an address from the preferred base, as an RVA. -/
def rvaOf? (image : Image) (address : UInt64) : Option UInt32 :=
  if address < image.base ∨ UInt32.size ≤ (address - image.base).toNat then none
  else some (address - image.base).toUInt32

/-- The exported function of a table that starts closest before `rva` or at it. -/
def nearestIn? (image : Image) (rva : UInt32) (table : ExportTable) : Option SymbolMatch := do
  let (entry, displacement) ← table.nearest? rva
  let name ← entry.name
  return { name, address := image.base + entry.rva.toUInt64, displacement := displacement.toUInt64 }

/-- The exported function that starts closest before `address` or at it. -/
def nearestExport? (image : Image) (address : UInt64) : Option SymbolMatch := do
  let rva ← image.rvaOf? address
  image.nearestIn? rva (← image.exports.toOption)

/-- The nearer of the nearest export and the nearest function of the symbol table; the export when
both are equally near. -/
def nearer? : Option SymbolMatch → Option SymbolMatch → Option SymbolMatch
  | some e, some f => if f.displacement < e.displacement then some f else some e
  | some e, none => some e
  | none, f => f

/-- The nearest symbol of an image's own tables. -/
def nearestSymbol? (image : Image) (address : UInt64) : Option SymbolMatch :=
  nearer? (image.nearestExport? address) (image.nearestFunction? address)

end Image

end Postmortem
