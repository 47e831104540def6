import Postmortem.Text.Hex

/-!
# Why an image cannot be read
-/
namespace Postmortem

/-- The tables of an image that are checked as a whole before any entry is read. -/
inductive TableKind where
  | sections
  | symbols
  | strings
  | other (name : String)
  deriving DecidableEq, Repr

namespace TableKind

def name : TableKind → String
  | sections => "section table"
  | symbols => "symbol table"
  | strings => "string table"
  | other name => name

end TableKind

/-- Why an image, or a part of it that was asked for, cannot be read. Sizes and offsets are those
of the buffer the image is read from. -/
inductive ImageError where
  | notFound (path : String)
  | badDosSignature
  | badSignature
  | badMagic (magic : UInt16)
  | truncatedHeader (expected actual : Nat)
  | truncatedTable (table : TableKind) (expected actual : Nat)
  | unmappedRva (rva : UInt32)
  | badOffset (offset : Nat)
  | badExportDirectory
  | badText
  | unreadable (cause : String)
  deriving DecidableEq, Repr

namespace ImageError

open Text

def message : ImageError → String
  | notFound path => "image not found: " ++ path
  | badDosSignature => "invalid DOS signature"
  | badSignature => "invalid PE signature"
  | badMagic magic => "invalid optional header magic: 0x" ++ hexPadded 4 magic.toNat
  | truncatedHeader expected actual =>
    s!"truncated header: expected {expected} bytes, got {actual}"
  | truncatedTable table expected actual =>
    s!"truncated {table.name}: expected {expected} bytes, got {actual}"
  | unmappedRva rva => "RVA 0x" ++ hexPadded 8 rva.toNat ++ " is not inside any section"
  | badOffset offset => "file offset " ++ hexMarked offset ++ " is outside the image"
  | badExportDirectory => "malformed export directory"
  | badText => "invalid string encoding"
  | unreadable cause => "I/O error: " ++ cause

end ImageError

end Postmortem
