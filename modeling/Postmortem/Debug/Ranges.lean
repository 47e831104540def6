import Postmortem.Debug.Unit

/-!
# The code of an entry

An entry covers one range of addresses, given by its ends or by start and length, or a list of
ranges that a section of its own holds. Ranges in such lists that are empty or stand for removed
code are left out.
-/
namespace Postmortem.Debug

/-- The addresses from `start` up to but not including `stop`. -/
structure CodeRange where
  start : Nat
  stop : Nat
  deriving DecidableEq, Repr

namespace CodeRange

def isEmpty (r : CodeRange) : Bool := r.stop ≤ r.start

def contains (r : CodeRange) (address : Nat) : Bool := r.start ≤ address && address < r.stop

end CodeRange

/-- The entries of a range list. -/
inductive RangeListEntry where
  | stop
  /-- What the offset pairs that follow are relative to. -/
  | base (address : Nat)
  | range (r : CodeRange)
  | offsets (start stop : Nat)

namespace RangeListEntry

/-- The next entry before version five: a pair of offsets. Two zeros end the list; the largest
address announces a base. -/
def readPair (e : Encoding) : Decoder RangeListEntry := do
  let start ← Decoder.address e
  let stop ← Decoder.address e
  if start = 0 ∧ stop = 0 then return .stop
  else if start + 1 = addressLimit e.addressSize then return base stop
  else return offsets start stop

/-- The next entry from version five on. -/
def readTagged (s : DebugSections) (b : UnitBases) : Decoder RangeListEntry := do
  let e := b.encoding
  let withLength (start length : Nat) : RangeListEntry :=
    range ⟨start, (start + length) % addressLimit e.addressSize⟩
  match ← Decoder.number 1 with
  | 0 => return .stop
  | 1 => return base (← s.address b (← Decoder.unsigned))
  | 2 => do
    let first ← Decoder.unsigned
    let last ← Decoder.unsigned
    return range ⟨← s.address b first, ← s.address b last⟩
  | 3 => do
    let first ← Decoder.unsigned
    let length ← Decoder.unsigned
    return withLength (← s.address b first) length
  | 4 => return offsets (← Decoder.unsigned) (← Decoder.unsigned)
  | 5 => return base (← Decoder.address e)
  | 6 => return range ⟨← Decoder.address e, ← Decoder.address e⟩
  | 7 => return withLength (← Decoder.address e) (← Decoder.unsigned)
  | kind => throw (.unknownRangeEntry kind)

def read (s : DebugSections) (b : UnitBases) : Decoder RangeListEntry :=
  if b.encoding.version ≤ 4 then readPair b.encoding else readTagged s b

end RangeListEntry

namespace CodeRange

/-- The ranges of the list in the cursor, whose offset pairs are relative to `base`. -/
def readList (s : DebugSections) (b : UnitBases) (base : Nat) (c : Cursor) :
    Except DebugError (List CodeRange) :=
  if c.atEnd then .ok []
  else
    let size := b.encoding.addressSize
    let keep (r : CodeRange) (rest : List CodeRange) : List CodeRange :=
      if tombstone size ≤ r.start ∨ r.isEmpty then rest else r :: rest
    match RangeListEntry.read s b c with
    | .error x => .error x
    | .ok (entry, rest) =>
      if rest.remaining < c.remaining then
        match entry with
        | .stop => .ok []
        | .base address => readList s b address rest
        | .range r => (readList s b base rest).map (keep r)
        | .offsets start stop =>
          if tombstone size ≤ base then readList s b base rest
          else
            let limit := addressLimit size
            (readList s b base rest).map (keep ⟨(base + start) % limit, (base + stop) % limit⟩)
      else .ok []
termination_by c.remaining

/-- The list of ranges an attribute stands for, if it has the form of one. -/
def listOf (s : DebugSections) (u : CompilationUnit) (v : AttributeValue) :
    Except DebugError (Option (List CodeRange)) := do
  let offset? ←
    match v with
    | .sectionOffset o => pure (some o)
    | .rangeListIndex i => do
      let o ← DebugSections.indexed s.rangeLists u.bases.rangeLists i u.encoding.offsetSize
      pure (some ((u.bases.rangeLists + o) % UInt64.size))
    | _ => pure none
  match offset? with
  | none => return none
  | some o => do
    let lists := if u.encoding.version ≤ 4 then s.ranges else s.rangeLists
    let (_, c) ← Decoder.skip o (.ofSection lists)
    return some (← readList s u.bases u.lowAddress c)

end CodeRange

/-- The ends of an entry's code that its attributes have given so far. -/
structure CodeBounds where
  low : Option Nat := none
  high : Option Nat := none
  length : Option Nat := none

namespace CodeBounds

/-- The range between the bounds. A length is taken over an end. -/
def range? (b : CodeBounds) : Option CodeRange := do
  let low ← b.low
  match b.length with
  | some n => return ⟨low, (low + n) % UInt64.size⟩
  | none => return ⟨low, ← b.high⟩

end CodeBounds

namespace Entry

/-- An address that an attribute has to have the form of. -/
def requireAddress (s : DebugSections) (u : CompilationUnit) (v : AttributeValue) :
    Except DebugError Nat := do
  match ← s.addressOf u.bases v with
  | some a => return a
  | none => throw .unexpectedForm

/-- The ranges that the given attributes of an entry describe: those of the first list, or the one
range between the bounds. -/
def rangesOf (s : DebugSections) (u : CompilationUnit) (after : Except DebugError Cursor)
    (b : CodeBounds) : List Attribute → Except DebugError (List CodeRange)
  | [] => do
    let _ ← after
    return b.range?.toList
  | a :: rest => do
    if a.name = AttributeName.lowAddress then
      let low ← requireAddress s u a.value
      rangesOf s u after { b with low := some low } rest
    else if a.name = AttributeName.highAddress then
      match a.value.constant? with
      | some n => rangesOf s u after { b with length := some n } rest
      | none => do
        let high ← requireAddress s u a.value
        rangesOf s u after { b with high := some high } rest
    else if a.name = AttributeName.ranges then
      match ← CodeRange.listOf s u a.value with
      | some ranges => return ranges
      | none => rangesOf s u after b rest
    else rangesOf s u after b rest

/-- The ranges of addresses that the entry covers. -/
def ranges (entry : Entry) (s : DebugSections) (u : CompilationUnit) :
    Except DebugError (List CodeRange) := rangesOf s u entry.after {} entry.attributes

/-- The one range the entry states by its ends, or by its start and its length. -/
def bounds? (entry : Entry) (s : DebugSections) (u : CompilationUnit) :
    Except DebugError (Option CodeRange) := do
  let some low ← entry.value? AttributeName.lowAddress | return none
  let some start ← s.addressOf u.bases low | return none
  let some high ← entry.value? AttributeName.highAddress | return none
  match ← s.addressOf u.bases high with
  | some stop => return some ⟨start, stop⟩
  | none => return high.constant?.map fun n => ⟨start, (start + n) % UInt64.size⟩

end Entry

end Postmortem.Debug
