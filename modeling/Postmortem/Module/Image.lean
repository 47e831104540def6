import Postmortem.Debug.Basic
import Postmortem.Image.File
import Postmortem.Process.Map

/-!
# What is known of a module

The image of a module comes from its file or, failing that, out of the process it is loaded in.
Either way there may be none, and most images have no debug information. An image that was copied
out of a process is never asked for any: its base is the address it was loaded at, while debug
information keeps the addresses of the file.
-/
namespace Postmortem

open Debug

structure ModuleImage where
  image : Option Image
  debug : Option DebugInfo

instance : Inhabited ModuleImage := ⟨none, none⟩

namespace ModuleImage

/-- An address of the process as an address of the image, which is loaded at `base`. -/
def imageAddress? (m : ModuleImage) (base address : UInt64) : Option UInt64 := do
  let image ← m.image
  if base ≤ address then some (image.base + (address - base)) else none

/-- Memory is copied in pages of this size. -/
def pageSize : Nat := 0x1000

/-- Copies `size` bytes from `base` on, page by page. What cannot be read stays zero. The address of
a page wraps around, as in a build that does not check its arithmetic; `Checked.copyPages` checks
it. -/
def copyPages (processes : ProcessMap) (process : ProcessId) (base : UInt64) (size : Nat) : Bytes :=
  (List.range ((size + pageSize - 1) / pageSize)).foldl (fun copy i =>
    match processes.readMemory? process (base + UInt64.ofNat (i * pageSize)) pageSize with
    | some page => copy.overwrite (i * pageSize) page
    | none => copy) (.zeros size)

/-- Reads the image that is loaded at `base`. The first page has to tell how large it is. -/
def ofMemory (processes : ProcessMap) (process : ProcessId) (base : UInt64) (limit : Nat) :
    Except LookupError Image := do
  let some first := processes.readMemory? process base pageSize
    | throw (.unreadable (ProcessMap.unreadableMessage base))
  let headers ← (Image.ofMemoryBytes first).mapError .ofImageError
  let size := headers.sizeOfImage.toNat
  if limit < size then throw (.ofAccessError (.tooLarge limit size))
  (Image.ofMemoryBytes (copyPages processes process base size)).mapError .ofImageError

/-- The image of a module, from its file if that can be read. -/
def find? (files : Files) (processes : ProcessMap) (limit : Nat) (process : ProcessId)
    (base : UInt64) (path : Option String) : Option Image :=
  match path.bind fun path => (Image.openFile files path limit).toOption with
  | some image => some image
  | none => (ofMemory processes process base limit).toOption

/-- The debug information of an image that comes from a file. -/
def debugInfo? (image : Image) : Option DebugInfo :=
  match image.options.layout with
  | .file => DebugInfo.ofImage? image
  | .memory => none

/-- All that can be had of a module. -/
def build (files : Files) (processes : ProcessMap) (limit : Nat) (process : ProcessId)
    (base : UInt64) (path : Option String) : ModuleImage :=
  let image := find? files processes limit process base path
  ⟨image, image.bind debugInfo?⟩

end ModuleImage

end Postmortem
