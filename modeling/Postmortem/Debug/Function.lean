import Postmortem.Debug.Ranges
import Postmortem.Text.Lossy

/-!
# The function at an address

A unit is searched for the first function entry whose code contains the address. An entry without
a name of its own takes that of the declaration or the abstract function it refers to, through a
limited number of references.
-/
namespace Postmortem.Debug

structure FunctionMatch where
  name : String
  /-- Where the function starts. -/
  start : Nat
  displacement : Nat
  /-- The unit of the function. -/
  unit : Nat
  deriving DecidableEq, Repr

/-- The name of functions that have none. -/
def unknownName : String := "??"

/-- The number of references that are followed from an entry to its name. -/
def maxNameReferences : Nat := 8

namespace Entry

/-- Where a function starts whose code is in `ranges`, if one of them contains the address: at the
least of them. -/
def startOf? (ranges : List CodeRange) (address : Nat) : Option Nat :=
  let ranges := ranges.filter (!·.isEmpty)
  if ranges.any (·.contains address) then (ranges.map (·.start)).min? else none

/-- Where the entry's code starts, when it contains the address. -/
def coveringStart? (entry : Entry) (s : DebugSections) (u : CompilationUnit) (address : Nat) :
    Except DebugError (Option Nat) := do
  match ← entry.bounds? s u with
  | some r => return if r.contains address then some r.start else none
  | none =>
    match ← entry.value? AttributeName.ranges with
    | none => return none
    | some _ => return startOf? (← entry.ranges s u) address

/-- The value of the first name in the list that the entry has an attribute of. -/
def firstValue? (entry : Entry) : List Nat → Except DebugError (Option AttributeValue)
  | [] => .ok none
  | name :: names => do
    match ← entry.value? name with
    | some v => return some v
    | none => firstValue? entry names

/-- The name that an entry has itself. -/
def ownName? (entry : Entry) (s : DebugSections) (u : CompilationUnit) :
    Except DebugError (Option String) := do
  match ← entry.firstValue? [AttributeName.name, AttributeName.linkageName,
      AttributeName.vendorLinkageName] with
  | some v => return some (Text.lossy (← s.textOf u.bases v))
  | none => return none

/-! The search for a function may lead from one unit to others. It is told how to load a unit, so
that it can be run with units that were loaded before. -/

section Search

variable {m : Type → Type} [Monad m] [MonadLiftT (Except DebugError) m]
  (load : Nat → m CompilationUnit)

/-- The unit and the entry at an offset of the section, if any unit reaches there. -/
def locate? (s : DebugSections) (offset : Nat) : m (Option (CompilationUnit × Entry)) := do
  let (headers, ending) := UnitHeader.readAll (.ofSection s.info)
  match headers.findSome? fun h => (h.localOffset? offset).map (h.start, ·) with
  | some (start, within) => do
    let u ← load start
    return some (u, ← u.entryAt within)
  | none =>
    match ending with
    | some x => liftM (Except.error x : Except DebugError _)
    | none => return none

/-- The entry that this one refers to by the first of the given attributes that is a reference. -/
def referent? (entry : Entry) (s : DebugSections) (u : CompilationUnit) :
    List Nat → m (Option (CompilationUnit × Entry))
  | [] => return none
  | name :: names => do
    match ← entry.value? name with
    | some (.unitReference o) => return some (u, ← u.entryAt o)
    | some (.entryReference o) => locate? load s o
    | _ => referent? entry s u names

/-- The name of an entry, through at most `references` references. -/
def name? (s : DebugSections) : Nat → CompilationUnit → Entry → m (Option String)
  | references, u, entry => do
    match ← entry.ownName? s u with
    | some n => return some n
    | none =>
      match references with
      | 0 => return none
      | references + 1 =>
        match ← entry.referent? load s u
            [AttributeName.specification, AttributeName.abstractOrigin] with
        | some (u', entry') => name? s references u' entry'
        | none => return none

end Search

end Entry

namespace CompilationUnit

variable {m : Type → Type} [Monad m] [MonadLiftT (Except DebugError) m]
  (load : Nat → m CompilationUnit)

/-- The first of the entries whose code contains the address, as a function of the unit. -/
def searchEntries (s : DebugSections) (u : CompilationUnit) (address : Nat)
    (ending : Option DebugError) : List Entry → m (Option FunctionMatch)
  | [] =>
    match ending with
    | some x => liftM (Except.error x : Except DebugError _)
    | none => return none
  | entry :: rest => do
    if entry.tag ≠ Entry.functionTag then searchEntries s u address ending rest
    else
      match ← entry.coveringStart? s u address with
      | none => searchEntries s u address ending rest
      | some start => do
        let name ← Entry.name? load s maxNameReferences u entry
        return some { name := name.getD unknownName, start, displacement := address - start,
                      unit := u.header.start }

/-- The function of the unit whose code contains the address. -/
def function? (s : DebugSections) (u : CompilationUnit) (address : Nat) :
    m (Option FunctionMatch) :=
  searchEntries load s u address u.entries.2 u.entries.1

end CompilationUnit

end Postmortem.Debug
