import Postmortem.Debug.AddressIndex
import Postmortem.Debug.LineTable
import Postmortem.Image.Basic

/-!
# Debug information of an image

The debug sections of an image are taken out of it once and indexed by address. Functions and
lines are then looked up in the unit that the index gives.
-/
namespace Postmortem.Debug

structure DebugInfo where
  sections : DebugSections
  index : AddressIndex

namespace DebugInfo

/-- The debug information of an image that has a section of units. -/
def ofImage? (image : Image) : Option DebugInfo := do
  let info ← image.sectionData? ".debug_info"
  let data (name : String) : Bytes := (image.sectionData? name).getD .empty
  let sections : DebugSections := {
    info
    abbreviations := data ".debug_abbrev"
    addresses := data ".debug_addr"
    addressRanges := data ".debug_aranges"
    lines := data ".debug_line"
    lineTexts := data ".debug_line_str"
    ranges := data ".debug_ranges"
    rangeLists := data ".debug_rnglists"
    texts := data ".debug_str"
    textOffsets := data ".debug_str_offsets" }
  return { sections, index := .build sections }

section Search

variable {m : Type → Type} [Monad m] [MonadLiftT (Except DebugError) m]
  (load : Nat → m CompilationUnit) (loadLines : Nat → m LineTable)

/-- The function whose code contains an address, with the given way to load units. -/
def searchFunction (d : DebugInfo) (address : Nat) : m (Option FunctionMatch) :=
  match d.index.find? address with
  | none => return none
  | some r => do (← load r.unit).function? load d.sections address

/-- The line at an address, with the given ways to load units and line tables. -/
def searchLine (d : DebugInfo) (address : Nat) : m (Option LineMatch) := do
  match ← d.searchFunction load address with
  | none => return none
  | some f => return (← loadLines f.unit).find? address

end Search

/-- The function whose code contains an address, when its unit can be read. -/
def function? (d : DebugInfo) (address : Nat) : Except DebugError (Option FunctionMatch) :=
  d.searchFunction (CompilationUnit.loadAt d.sections) address

/-- The line at an address. Only addresses in a function have one. -/
def line? (d : DebugInfo) (address : Nat) : Except DebugError (Option LineMatch) :=
  d.searchLine (CompilationUnit.loadAt d.sections) (LineTable.loadAt d.sections) address

end DebugInfo

end Postmortem.Debug
