import Postmortem.Debug.Attribute

/-!
# The debug sections of an image

Attributes refer to texts, addresses and range lists in sections of their own, some of them by an
index that counts from a base the unit states.
-/
namespace Postmortem.Debug

/-- The debug sections. One that an image does not have is empty. -/
structure DebugSections where
  info : Bytes
  abbreviations : Bytes
  addresses : Bytes
  addressRanges : Bytes
  lines : Bytes
  lineTexts : Bytes
  ranges : Bytes
  rangeLists : Bytes
  texts : Bytes
  textOffsets : Bytes
  deriving Inhabited

/-- What the indices of a unit count from. -/
structure UnitBases where
  encoding : Encoding
  textOffsets : Nat := 0
  addresses : Nat := 0
  rangeLists : Nat := 0

/-- Where the entry of the given index is in a table of entries of one size. -/
def indexedOffset (index size : Nat) : Nat := index * size % UInt64.size

namespace DebugSections

/-- The number at an index of a table that starts at `base`. -/
def indexed (data : Bytes) (base index size : Nat) : Except DebugError Nat :=
  Decoder.readSection (do Decoder.skip (indexedOffset index size); Decoder.number size) data base

/-- The address at an index of the address section. -/
def address (s : DebugSections) (b : UnitBases) (index : Nat) : Except DebugError Nat :=
  indexed s.addresses b.addresses index b.encoding.addressSize

/-- The address an attribute stands for, if it has the form of one. -/
def addressOf (s : DebugSections) (b : UnitBases) :
    AttributeValue → Except DebugError (Option Nat)
  | .address a => .ok (some a)
  | .addressIndex i => (s.address b i).map some
  | _ => .ok none

/-- The bytes of the text an attribute stands for. -/
def textOf (s : DebugSections) (b : UnitBases) : AttributeValue → Except DebugError Bytes
  | .text t => .ok t
  | .textOffset o => Decoder.readSection Decoder.zeroTerminated s.texts o
  | .lineTextOffset o => Decoder.readSection Decoder.zeroTerminated s.lineTexts o
  | .textIndex i => do
    let o ← indexed s.textOffsets b.textOffsets i b.encoding.offsetSize
    Decoder.readSection Decoder.zeroTerminated s.texts o
  | _ => .error .unexpectedForm

end DebugSections

end Postmortem.Debug
