import Postmortem.Checked.Section

/-!
# The export table in checked arithmetic
-/
namespace Postmortem.Checked

def contains (d : DataDirectory) (rva : UInt32) : Option Bool :=
  if d.rva ≤ rva then do return (← sub32 rva d.rva) < d.size else return false

def exportField (b : Bytes) (place : Nat) : Except ImageError UInt32 :=
  match b.u32? place with
  | some v => .ok v
  | none => .error (.badOffset place)

def exportDirectory (b : Bytes) (start : Nat) : Reader ExportTable.Directory := do
  if b.size < cappedEnd start ExportTable.Directory.size then throw .badExportDirectory
  let nameRva ← exportField b (← offset (start + 12))
  let ordinalBase ← exportField b (← offset (start + 16))
  let functionCount ← exportField b (← offset (start + 20))
  let nameCount ← exportField b (← offset (start + 24))
  let functionsRva ← exportField b (← offset (start + 28))
  let namesRva ← exportField b (← offset (start + 32))
  let ordinalsRva ← exportField b (← offset (start + 36))
  return { nameRva, ordinalBase, functionCount, nameCount, functionsRva, namesRva, ordinalsRva }

/-- The entries of the address table that lie in the buffer, of the `n` from number `i` on. -/
def addressesFrom (b : Bytes) (start i : Nat) : Nat → Option (List UInt32)
  | 0 => return []
  | n + 1 => do
    let some rva := b.u32? (← offset (start + i * 4)) | return []
    return rva :: (← addressesFrom b start (i + 1) n)

/-- The names that `n` entries of the name and ordinal tables give, from number `i` on. -/
def namesFrom (b : Bytes) (t : SectionTable) (nameAt ordinalAt i : Nat) :
    Nat → Option (List (Nat × String))
  | 0 => return []
  | n + 1 => do
    let namePlace ← offset (nameAt + i * 4)
    let ordinalPlace ← offset (ordinalAt + i * 2)
    match b.u32? namePlace, b.u16? ordinalPlace with
    | some rva, some position =>
      let place ← rvaToOffset t rva
      let rest ← namesFrom b t nameAt ordinalAt (i + 1) n
      match place.bind (b.text? · ExportTable.nameLimit) with
      | some name => return (position.toNat, name) :: rest
      | none => return rest
    | _, _ => return []

def forwarder (b : Bytes) (t : SectionTable) (directory : DataDirectory) (rva : UInt32) :
    Option (Option String) := do
  if ← contains directory rva then
    return (← rvaToOffset t rva).bind (b.text? · ExportTable.textLimit)
  else return none

def exportEntries (b : Bytes) (t : SectionTable) (directory : DataDirectory) (ordinalBase : UInt32)
    (names : Std.HashMap Nat String) (addresses : List UInt32) : Option (List ExportEntry) := do
  let used := addresses.zipIdx.filter fun (rva, _) => rva ≠ 0
  used.mapM fun (rva, position) => do
    return { name := names[position]?
             ordinal := ordinalBase + UInt32.ofNat position
             rva
             forwarder := ← forwarder b t directory rva }

def exportTable (b : Bytes) (t : SectionTable) (directory : DataDirectory) (maxExports : Nat) :
    Reader ExportTable := do
  if !directory.isPresent then return .empty
  let d ← exportDirectory b (← translate t directory.rva)
  let limit := UInt32.ofNat maxExports
  let libraryName ←
    if d.nameRva = 0 then pure none
    else do pure (b.text? (← translate t d.nameRva) ExportTable.textLimit)
  let addresses ← addressesFrom b (← translate t d.functionsRva) 0 (min d.functionCount limit).toNat
  let nameCount := min d.nameCount limit
  let names ←
    if 0 < nameCount ∧ d.namesRva ≠ 0 ∧ d.ordinalsRva ≠ 0 then do
      let nameAt ← translate t d.namesRva
      let ordinalAt ← translate t d.ordinalsRva
      liftM (namesFrom b t nameAt ordinalAt 0 nameCount.toNat)
    else pure []
  let entries ← exportEntries b t directory d.ordinalBase (Std.HashMap.ofList names) addresses
  return { libraryName, ordinalBase := d.ordinalBase
           entries := (entries.mergeSort fun e f => e.rva ≤ f.rva).toArray }

/-- Whether the entry with number `i` starts at or before an address. -/
def starts (t : ExportTable) (rva : UInt32) (i : Nat) : Bool :=
  match t.entries[i]? with
  | some e => e.rva ≤ rva
  | none => false

def nearestEntry (t : ExportTable) (rva : UInt32) : Option (Option (ExportEntry × UInt32)) := do
  let some e := ExportTable.lastNamedCode? t.entries
    (partitionPoint t.entries.size (starts t rva)) | return none
  return some (e, ← sub32 rva e.rva)

end Postmortem.Checked
