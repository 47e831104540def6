import Std.Data.HashSet
import Postmortem.Debug.Ranges

/-!
# Which unit an address belongs to

The index lists ranges of addresses with the units they belong to: first those of the address
range section, then those that units give for themselves when that section does not mention them.
Where ranges overlap the earliest counts.
-/
namespace Postmortem.Debug

/-- The addresses from `start` up to but not including `stop`, which the unit covers that starts at
`unit` in the section of units. -/
structure UnitRange where
  start : Nat
  stop : Nat
  unit : Nat
  deriving DecidableEq, Repr

namespace UnitRange

def contains (r : UnitRange) (address : Nat) : Bool := r.start ≤ address && address < r.stop

/-- The ranges that are not empty, as ranges of one unit. -/
def ofCode (unit : Nat) (ranges : List CodeRange) : List UnitRange :=
  ranges.filterMap fun r => if r.isEmpty then none else some ⟨r.start, r.stop, unit⟩

/-- The pairs of start and length that the cursor holds. A pair of zeros is passed over and so is
one that stands for removed code; a tail that is no pair ends the list. -/
def readPairs (size unit : Nat) (c : Cursor) : Except DebugError (List UnitRange) :=
  if c.remaining < 2 * size then .ok []
  else
    match (do return (← Decoder.number size, ← Decoder.number size) : Decoder (Nat × Nat)) c with
    | .error x => .error x
    | .ok ((start, length), rest) =>
      if rest.remaining < c.remaining then do
        if (start = 0 ∧ length = 0) ∨ tombstone size ≤ start then readPairs size unit rest
        else if addressLimit size ≤ start + length then throw .addressOverflow
        else
          let ranges ← readPairs size unit rest
          return if length = 0 then ranges else ⟨start, start + length, unit⟩ :: ranges
      else .ok []
termination_by c.remaining

/-- The ranges of one set. Its pairs start at a multiple of their own size. -/
def readSet (wide : Bool) (c : Cursor) : Except DebugError (List UnitRange) := do
  let header : Decoder (Nat × Nat) := do
    let version ← Decoder.number 2
    if version ≠ 2 ∧ version ≠ 3 then throw (.unknownVersion version)
    let unit ← Decoder.number (if wide then 8 else 4)
    let size ← Decoder.addressSize
    let segmentSize ← Decoder.number 1
    if segmentSize ≠ 0 then throw (.unsupportedSegmentSize segmentSize)
    let headerSize := if wide then 24 else 12
    Decoder.skip ((2 * size - headerSize % (2 * size)) % (2 * size))
    return (unit, size)
  let ((unit, size), rest) ← header c
  readPairs size unit rest

/-- The ranges of all sets from the cursor on. -/
def readSets (c : Cursor) : Except DebugError (List UnitRange) :=
  if c.atEnd then .ok []
  else
    let set : Decoder (Bool × Cursor) := do
      let (length, wide) ← Decoder.initialLength
      return (wide, ← Decoder.split length)
    match set c with
    | .error x => .error x
    | .ok ((wide, body), rest) =>
      if rest.remaining < c.remaining then do
        let ranges ← readSet wide body
        return ranges ++ (← readSets rest)
      else .ok []
termination_by c.remaining

end UnitRange

/-- Ranges in the order in which they are searched. -/
structure AddressIndex where
  ranges : List UnitRange
  deriving Repr

namespace AddressIndex

/-- The first range that contains an address. -/
def find? (x : AddressIndex) (address : Nat) : Option UnitRange :=
  x.ranges.find? (·.contains address)

/-- The ranges that the root of a unit gives; none when they cannot be read. -/
def rangesOfUnit (s : DebugSections) (h : UnitHeader) : List UnitRange :=
  let ranges := do
    let u ← CompilationUnit.load s h
    u.root.ranges s u
  UnitRange.ofCode h.start (ranges.toOption.getD [])

/-- The index of the given ranges and the units they do not mention. -/
def complete (s : DebugSections) (listed : List UnitRange) (units : List UnitHeader) :
    AddressIndex :=
  let mentioned := Std.HashSet.ofList (listed.map (·.unit))
  ⟨listed ++ (units.filter fun h => !mentioned.contains h.start).flatMap (rangesOfUnit s)⟩

/-- The index of an image. An address range section that cannot be read counts as empty, and units
after one whose header cannot be read are out of reach. -/
def build (s : DebugSections) : AddressIndex :=
  let listed := (UnitRange.readSets (.ofSection s.addressRanges)).toOption.getD []
  complete s listed (UnitHeader.readAll (.ofSection s.info)).1

end AddressIndex

end Postmortem.Debug
