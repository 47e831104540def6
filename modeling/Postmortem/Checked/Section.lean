import Postmortem.Checked.Arithmetic

/-!
# Sections in checked arithmetic
-/
namespace Postmortem.Checked

/-- Where the bytes of a section start and stop. -/
def bounds (h : SectionHeader) : ImageLayout → Option (Nat × Nat)
  | .file => do
    let size := if h.virtualSize = 0 then h.rawSize else min h.virtualSize h.rawSize
    return (h.rawAt.toNat, ← offset (h.rawAt.toNat + size.toNat))
  | .memory => do return (h.rva.toNat, ← offset (h.rva.toNat + h.extent.toNat))

def sections (headers : List SectionHeader) (strings : Option Bytes) (layout : ImageLayout) :
    Option (List Section) :=
  headers.zipIdx.mapM fun (h, index) => do
    let long := do (← strings).text? (← h.longNameAt?) Section.longNameLimit
    let (start, stop) ← bounds h layout
    return { name := long.getD h.shortName, index, header := h, start, stop }

def numbered (t : SectionTable) (number : Int16) : Option (Option Section) :=
  if number ≤ 0 then return none
  else do
    let index ← pred16 number
    return t.sections.find? (·.index = index.toInt.toNat)

def compareTo (h : SectionHeader) (rva : UInt32) : Option Ordering :=
  if rva < h.rva then return .gt
  else do
    let distance ← sub32 rva h.rva
    return if h.extent ≤ distance then .lt else .eq

def fileOffset (h : SectionHeader) (rva : UInt32) : Option (Option Nat) := do
  let delta ← sub32 rva h.rva
  if delta < h.rawSize then return some (← offset (h.rawAt.toNat + delta.toNat)) else return none

/-- The last probe of a search by halving, with a comparison that can stop. -/
def probe (after : Nat → Option Bool) (base size : Nat) : Option Nat :=
  if 1 < size then do
    let half := size / 2
    let isAfter ← after (base + half)
    probe after (if isAfter then base else base + half) (size - half)
  else return base
termination_by size

def find (size : Nat) (compare : Nat → Option Ordering) : Option (Option Nat) :=
  if size = 0 then return none
  else do
    let i ← probe (fun i => return (← compare i) == .gt) 0 size
    return if (← compare i) == .eq then some i else none

def rvaToOffset (t : SectionTable) (rva : UInt32) : Option (Option Nat) :=
  match t.layout with
  | .memory => return some rva.toNat
  | .file => do
    let place (i : Nat) : Option Ordering :=
      match t.sections[i]? with
      | some s => compareTo s.header rva
      | none => return .gt
    let some i ← find t.sections.size place | return none
    let some s := t.sections[i]? | return none
    fileOffset s.header rva

def translate (t : SectionTable) (rva : UInt32) : Reader Nat := do
  match ← rvaToOffset t rva with
  | some place => return place
  | none => throw (.unmappedRva rva)

end Postmortem.Checked
