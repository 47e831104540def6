import Postmortem.Bytes
import Postmortem.Image.Error

/-!
# Image headers

An image starts with a DOS header that says where the signature `PE` is; after the signature come
the file header, the optional header and the data directories. Each reader checks that its whole
structure lies in the buffer before it reads a field, and reports the size it would have needed.
Offsets are sums of 64-bit numbers, so a reported size is capped at the largest of them.
-/
namespace Postmortem

/-- The largest offset and size that can be stated. -/
def maxOffset : Nat := UInt64.size - 1

/-- The end of `size` bytes at `offset`, capped at `maxOffset`. -/
def cappedEnd (offset size : Nat) : Nat := min (offset + size) maxOffset

/-- A field of a header that ends at `stop`. -/
def requireField {α : Type} (value : Option α) (stop size : Nat) : Except ImageError α :=
  match value with
  | some v => .ok v
  | none => .error (.truncatedHeader stop size)

/-- The text at `offset`, which has to be readable. -/
def Bytes.requireText (b : Bytes) (offset limit : Nat) : Except ImageError String :=
  match b.text? offset limit with
  | some s => .ok s
  | none => .error .badText

/-- Passes when the `size` bytes of a table at `offset` lie in a buffer of `total` bytes. -/
def checkTable (table : TableKind) (offset size total : Nat) : Except ImageError Unit :=
  if offset + size ≤ total ∧ offset + size ≤ maxOffset then .ok ()
  else .error (.truncatedTable table (cappedEnd offset size) total)

/-- The processor an image is built for. -/
inductive Machine where
  | unknown
  | i386
  | x86_64
  | arm64
  | other (code : UInt16)
  deriving DecidableEq, Repr

def Machine.ofCode (code : UInt16) : Machine :=
  if code = 0x014c then .i386
  else if code = 0x8664 then .x86_64
  else if code = 0xaa64 then .arm64
  else if code = 0 then .unknown
  else .other code

/-- The two fields of the DOS header that matter. -/
structure DosHeader where
  magic : UInt16
  /-- Where the signature and the headers after it start. -/
  headersAt : UInt32
  deriving DecidableEq, Repr

namespace DosHeader

def size : Nat := 64

/-- The letters `MZ`. -/
def signature : UInt16 := 0x5A4D

def read (b : Bytes) : Except ImageError DosHeader := do
  if b.size < size then throw (.truncatedHeader size b.size)
  let magic ← requireField (b.u16? 0) 2 b.size
  if magic ≠ signature then throw .badDosSignature
  let headersAt ← requireField (b.u32? 0x3c) 0x40 b.size
  return { magic, headersAt }

end DosHeader

/-- The file header: what the image is for and how many sections and symbols it has. -/
structure FileHeader where
  machine : Machine
  sectionCount : UInt16
  timestamp : UInt32
  symbolsAt : UInt32
  symbolCount : UInt32
  optionalHeaderSize : UInt16
  characteristics : UInt16
  deriving DecidableEq, Repr

namespace FileHeader

def size : Nat := 20

def read (b : Bytes) (offset : Nat) : Except ImageError FileHeader := do
  let stop := cappedEnd offset size
  if b.size < stop then throw (.truncatedHeader stop b.size)
  let machine ← requireField (b.u16? offset) stop b.size
  let sectionCount ← requireField (b.u16? (offset + 2)) stop b.size
  let timestamp ← requireField (b.u32? (offset + 4)) stop b.size
  let symbolsAt ← requireField (b.u32? (offset + 8)) stop b.size
  let symbolCount ← requireField (b.u32? (offset + 12)) stop b.size
  let optionalHeaderSize ← requireField (b.u16? (offset + 16)) stop b.size
  let characteristics ← requireField (b.u16? (offset + 18)) stop b.size
  return { machine := .ofCode machine, sectionCount, timestamp, symbolsAt, symbolCount,
           optionalHeaderSize, characteristics }

end FileHeader

/-- The two forms of the optional header. They differ in the width of the image base and so in
where the fields after the sizes lie. -/
inductive ImageFormat where
  | pe32
  | pe32Plus
  deriving DecidableEq, Repr

namespace ImageFormat

def magic : ImageFormat → UInt16
  | pe32 => 0x10B
  | pe32Plus => 0x20B

def ofMagic? (magic : UInt16) : Option ImageFormat :=
  if magic = pe32.magic then some pe32
  else if magic = pe32Plus.magic then some pe32Plus
  else none

/-- The size of the optional header without its data directories. -/
def fixedSize : ImageFormat → Nat
  | pe32 => 96
  | pe32Plus => 112

/-- Where the number of data directories is, from the start of the optional header: it is the last
field of the fixed part. -/
def directoryCountAt (f : ImageFormat) : Nat := f.fixedSize - 4

/-- The preferred load address of the optional header at `offset`. -/
def imageBase? (f : ImageFormat) (b : Bytes) (offset : Nat) : Option UInt64 :=
  match f with
  | pe32 => (b.u32? (offset + 28)).map UInt32.toUInt64
  | pe32Plus => b.u64? (offset + 24)

end ImageFormat

structure OptionalHeader where
  format : ImageFormat
  entryPoint : UInt32
  imageBase : UInt64
  sectionAlignment : UInt32
  fileAlignment : UInt32
  sizeOfImage : UInt32
  sizeOfHeaders : UInt32
  directoryCount : UInt32
  deriving DecidableEq, Repr

namespace OptionalHeader

def is64Bit (h : OptionalHeader) : Bool := h.format = .pe32Plus

/-- The optional header at `offset`, for which the file header states `size` bytes. -/
def read (b : Bytes) (offset : Nat) (size : UInt16) : Except ImageError OptionalHeader := do
  let stop := cappedEnd offset size.toNat
  if size < 2 ∨ b.size < stop then throw (.truncatedHeader (max stop (offset + 2)) b.size)
  let magic ← requireField (b.u16? offset) stop b.size
  let some format := ImageFormat.ofMagic? magic | throw (.badMagic magic)
  if size.toNat < format.fixedSize then
    throw (.truncatedHeader (offset + format.fixedSize) stop)
  let imageBase ← requireField (format.imageBase? b offset) stop b.size
  let entryPoint ← requireField (b.u32? (offset + 16)) stop b.size
  let sectionAlignment ← requireField (b.u32? (offset + 32)) stop b.size
  let fileAlignment ← requireField (b.u32? (offset + 36)) stop b.size
  let sizeOfImage ← requireField (b.u32? (offset + 56)) stop b.size
  let sizeOfHeaders ← requireField (b.u32? (offset + 60)) stop b.size
  let directoryCount ← requireField (b.u32? (offset + format.directoryCountAt)) stop b.size
  return { format, entryPoint, imageBase, sectionAlignment, fileAlignment, sizeOfImage,
           sizeOfHeaders, directoryCount }

end OptionalHeader

/-- Where a table of the loaded image is. -/
structure DataDirectory where
  rva : UInt32
  size : UInt32
  deriving DecidableEq, Repr, Inhabited

namespace DataDirectory

def empty : DataDirectory := ⟨0, 0⟩

def isPresent (d : DataDirectory) : Bool := d.rva ≠ 0 && d.size ≠ 0

def contains (d : DataDirectory) (rva : UInt32) : Bool := d.rva ≤ rva && rva - d.rva < d.size

/-- The number of directories every image is taken to have. -/
def count : Nat := 16

def read? (b : Bytes) (offset : Nat) : Option DataDirectory := do
  return { rva := ← b.u32? offset, size := ← b.u32? (offset + 4) }

/-- The leading directories that lie in the buffer, at most `n`. -/
def readable (b : Bytes) (offset : Nat) : Nat → List DataDirectory
  | 0 => []
  | n + 1 =>
    match read? b offset with
    | some d => d :: readable b (offset + 8) n
    | none => []

/-- The directories at `offset`, of which the header states `stated`. Those that are not stated or
not in the buffer read as empty. -/
def readAll (b : Bytes) (offset : Nat) (stated : UInt32) : List DataDirectory :=
  let found := readable b offset (min stated.toNat count)
  found ++ List.replicate (count - found.length) empty

end DataDirectory

/-- The headers that follow the signature `PE`. -/
structure Headers where
  file : FileHeader
  optional : OptionalHeader
  directories : List DataDirectory
  deriving Repr

namespace Headers

/-- The letters `PE` and two zero bytes. -/
def signature : List UInt8 := [0x50, 0x45, 0, 0]

/-- Where the optional header is, from the start of the signature. -/
def optionalAt : Nat := signature.length + FileHeader.size

/-- The headers whose signature is at `offset`. -/
def read (b : Bytes) (offset : Nat) : Except ImageError Headers := do
  let some found := b.slice? offset signature.length
    | throw (.truncatedHeader (cappedEnd offset signature.length) b.size)
  if found.toList ≠ signature then throw .badSignature
  let file ← FileHeader.read b (offset + signature.length)
  let optional ← OptionalHeader.read b (offset + optionalAt) file.optionalHeaderSize
  let directories := DataDirectory.readAll b (offset + optionalAt + optional.format.fixedSize)
    optional.directoryCount
  return { file, optional, directories }

end Headers

end Postmortem
