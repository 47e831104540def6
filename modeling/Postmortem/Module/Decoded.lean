import Postmortem.Debug.Recall
import Postmortem.Module.Image

/-!
# What was decoded of a module

The tables of a module are decoded when a question needs them: the exports as a whole, debug
information unit by unit. What was decoded is kept with the module.
-/
namespace Postmortem

open Debug

namespace ModuleImage

/-- The exports of the image; there are none without one. -/
def exportTable (m : ModuleImage) : Except ImageError ExportTable :=
  match m.image with
  | some image => image.exports
  | none => .ok .empty

/-- The sections that debug information is read from. -/
def debugSections (m : ModuleImage) : DebugSections :=
  match m.debug with
  | some d => d.sections
  | none => default

end ModuleImage

/-- What was decoded so far of what is in a module. -/
structure Decoded (m : ModuleImage) where
  exports : Memo (fun _ : Unit => m.exportTable) := {}
  units : DecodedUnits m.debugSections := {}

namespace Decoded

variable {m : ModuleImage}

/-- The export table of a module, which is kept. -/
def recallTable (m : ModuleImage) : Recall (Decoded m) m.exportTable :=
  Memo.recallValue (fun kept : Decoded m => kept.exports)
    (fun kept exports => { kept with exports }) () (.work (fun _ : Unit => m.exportTable) ())

/-- The exports of the image of a module, which are kept. -/
def recallExports {image : Image} (h : m.image = some image) : Recall (Decoded m) image.exports :=
  (recallTable m).cast (by simp [ModuleImage.exportTable, h])

/-- The nearest exported function, from the exports that are kept. -/
def recallNearestExport {image : Image} (h : m.image = some image) (address : UInt64) :
    Recall (Decoded m) (image.nearestExport? address) :=
  match hrva : image.rvaOf? address with
  | none => (Recall.pure none).cast (by simp [Image.nearestExport?, hrva])
  | some rva =>
    ((recallExports h).map fun table => table.toOption.bind (image.nearestIn? rva)).cast
      (by simp [Image.nearestExport?, hrva])

/-- A recollection of debug information as one of the module it belongs to. -/
def ofUnits {α : Type} {a : α} (x : Recall (DecodedUnits m.debugSections) a) :
    Recall (Decoded m) a :=
  x.within (·.units) fun kept units => { kept with units }

/-- The function at an address, from the units that are kept. -/
def recallFunction {debug : DebugInfo} (h : m.debug = some debug) (address : Nat) :
    Recall (Decoded m) (debug.function? address) :=
  match m, h with
  | ⟨image, _⟩, rfl => ofUnits (m := ⟨image, some debug⟩) (debug.recallFunction address)

/-- The line at an address, from the units and line tables that are kept. -/
def recallLine {debug : DebugInfo} (h : m.debug = some debug) (address : Nat) :
    Recall (Decoded m) (debug.line? address) :=
  match m, h with
  | ⟨image, _⟩, rfl => ofUnits (m := ⟨image, some debug⟩) (debug.recallLine address)

end Decoded

end Postmortem
