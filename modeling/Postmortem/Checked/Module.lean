import Postmortem.Checked.Image
import Postmortem.Module.Image

/-!
# Modules in checked arithmetic

The image of a module that has no file is copied out of its process page by page. A module near the
end of the address space can state a size that reaches beyond it; its image is not copied then.
-/
namespace Postmortem.Checked

def openFile (files : Files) (path : String) (limit : Nat) : Reader Image :=
  match files.read path limit with
  | .ok data => parse data {} (some path)
  | .error _ => Image.openFile files path limit

/-- The image in a buffer that was copied out of a process. -/
def memoryImage (data : Bytes) : Option (Except LookupError Image) := do
  return (← (parse data { layout := .memory } none).run).mapError .ofImageError

/-- Copies `size` bytes from `base` on, page by page. What cannot be read stays zero. -/
def copyPages (processes : ProcessMap) (process : ProcessId) (base : UInt64) (size : Nat) :
    Option Bytes :=
  (List.range ((size + ModuleImage.pageSize - 1) / ModuleImage.pageSize)).foldlM (fun copy i => do
    let place ← offset (i * ModuleImage.pageSize)
    let address ← add64 base (.ofNat place)
    match processes.readMemory? process address ModuleImage.pageSize with
    | some page => return copy.overwrite place page
    | none => return copy) (.zeros size)

/-- Reads the image that is loaded at `base`. The first page has to tell how large it is. -/
def ofMemory (processes : ProcessMap) (process : ProcessId) (base : UInt64) (limit : Nat) :
    Option (Except LookupError Image) := do
  let some first := processes.readMemory? process base ModuleImage.pageSize
    | return .error (.unreadable (ProcessMap.unreadableMessage base))
  match ← memoryImage first with
  | .error e => return .error e
  | .ok headers =>
    let size := headers.sizeOfImage.toNat
    if limit < size then return .error (.ofAccessError (.tooLarge limit size))
    memoryImage (← copyPages processes process base size)

/-- The image of a file, if the path is known and leads to one. -/
def fileImage (files : Files) (limit : Nat) : Option String → Option (Option Image)
  | some path => do return (← (openFile files path limit).run).toOption
  | none => return none

/-- The image of a module, from its file if that can be read. -/
def moduleImage (files : Files) (processes : ProcessMap) (limit : Nat) (process : ProcessId)
    (base : UInt64) (path : Option String) : Option (Option Image) := do
  match ← fileImage files limit path with
  | some image => return some image
  | none => return (← ofMemory processes process base limit).toOption

/-- All that can be had of a module. -/
def build (files : Files) (processes : ProcessMap) (limit : Nat) (process : ProcessId)
    (base : UInt64) (path : Option String) : Option ModuleImage := do
  let image ← moduleImage files processes limit process base path
  return ⟨image, image.bind ModuleImage.debugInfo?⟩

end Postmortem.Checked
