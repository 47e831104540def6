import Postmortem.Checked.Arithmetic

/-!
# Headers in checked arithmetic
-/
namespace Postmortem.Checked

def fileHeader (b : Bytes) (start : Nat) : Reader FileHeader := do
  let stop := cappedEnd start FileHeader.size
  if b.size < stop then throw (.truncatedHeader stop b.size)
  let machine ← requireField (b.u16? start) stop b.size
  let sectionCount ← requireField (b.u16? (← offset (start + 2))) stop b.size
  let timestamp ← requireField (b.u32? (← offset (start + 4))) stop b.size
  let symbolsAt ← requireField (b.u32? (← offset (start + 8))) stop b.size
  let symbolCount ← requireField (b.u32? (← offset (start + 12))) stop b.size
  let optionalHeaderSize ← requireField (b.u16? (← offset (start + 16))) stop b.size
  let characteristics ← requireField (b.u16? (← offset (start + 18))) stop b.size
  return { machine := .ofCode machine, sectionCount, timestamp, symbolsAt, symbolCount,
           optionalHeaderSize, characteristics }

def imageBase (format : ImageFormat) (b : Bytes) (start : Nat) : Option (Option UInt64) :=
  match format with
  | .pe32 => do return (b.u32? (← offset (start + 28))).map UInt32.toUInt64
  | .pe32Plus => do return b.u64? (← offset (start + 24))

def optionalHeader (b : Bytes) (start : Nat) (size : UInt16) : Reader OptionalHeader := do
  let stop := cappedEnd start size.toNat
  if size < 2 ∨ b.size < stop then
    throw (.truncatedHeader (max stop (← offset (start + 2))) b.size)
  let magic ← requireField (b.u16? start) stop b.size
  let some format := ImageFormat.ofMagic? magic | throw (.badMagic magic)
  if size.toNat < format.fixedSize then
    throw (.truncatedHeader (← offset (start + format.fixedSize)) stop)
  let imageBase ← requireField (← imageBase format b start) stop b.size
  let entryPoint ← requireField (b.u32? (← offset (start + 16))) stop b.size
  let sectionAlignment ← requireField (b.u32? (← offset (start + 32))) stop b.size
  let fileAlignment ← requireField (b.u32? (← offset (start + 36))) stop b.size
  let sizeOfImage ← requireField (b.u32? (← offset (start + 56))) stop b.size
  let sizeOfHeaders ← requireField (b.u32? (← offset (start + 60))) stop b.size
  let directoryCount ←
    requireField (b.u32? (← offset (start + format.directoryCountAt))) stop b.size
  return { format, entryPoint, imageBase, sectionAlignment, fileAlignment, sizeOfImage,
           sizeOfHeaders, directoryCount }

/-- The directories that lie in the buffer, of the `n` from number `i` on. -/
def directoriesFrom (b : Bytes) (start i : Nat) : Nat → Option (List DataDirectory)
  | 0 => return []
  | n + 1 => do
    let place ← offset (start + i * 8)
    let some rva := b.u32? place | return []
    let some size := b.u32? (← offset (place + 4)) | return []
    return ⟨rva, size⟩ :: (← directoriesFrom b start (i + 1) n)

def directories (b : Bytes) (start : Nat) (stated : UInt32) : Option (List DataDirectory) := do
  let found ← directoriesFrom b start 0 (min stated.toNat DataDirectory.count)
  return found ++ List.replicate (DataDirectory.count - found.length) .empty

def headers (b : Bytes) (start : Nat) : Reader Headers := do
  let some found := b.slice? start Headers.signature.length
    | throw (.truncatedHeader (cappedEnd start Headers.signature.length) b.size)
  if found.toList ≠ Headers.signature then throw .badSignature
  let file ← fileHeader b (← offset (start + Headers.signature.length))
  let optionalAt ← offset (start + Headers.optionalAt)
  let optional ← optionalHeader b optionalAt file.optionalHeaderSize
  let directories ← directories b (← offset (optionalAt + optional.format.fixedSize))
    optional.directoryCount
  return { file, optional, directories }

def sectionHeader (b : Bytes) (start : Nat) : Reader SectionHeader := do
  let stop ← offset (start + SectionHeader.size)
  let nameField ← requireField (b.slice? start 8) stop b.size
  let virtualSize ← requireField (b.u32? (← offset (start + 8))) stop b.size
  let rva ← requireField (b.u32? (← offset (start + 12))) stop b.size
  let rawSize ← requireField (b.u32? (← offset (start + 16))) stop b.size
  let rawAt ← requireField (b.u32? (← offset (start + 20))) stop b.size
  let characteristics ← requireField (b.u32? (← offset (start + 36))) stop b.size
  return { nameField, virtualSize, rva, rawSize, rawAt, characteristics }

/-- The `n` section headers from number `i` on. -/
def sectionHeadersFrom (b : Bytes) (start i : Nat) : Nat → Reader (List SectionHeader)
  | 0 => return []
  | n + 1 => do
    let header ← sectionHeader b (← offset (start + i * SectionHeader.size))
    let rest ← sectionHeadersFrom b start (i + 1) n
    return header :: rest

def sectionHeaders (b : Bytes) (start : Nat) (count : UInt16) : Reader (List SectionHeader) := do
  checkTable .sections start (← offset (count.toNat * SectionHeader.size)) b.size
  sectionHeadersFrom b start 0 count.toNat

end Postmortem.Checked
