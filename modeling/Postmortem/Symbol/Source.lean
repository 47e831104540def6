import Postmortem.Checked.Image
import Postmortem.Module.Decoded

/-!
# Where names and lines come from

A source may know a symbol or a line for an address, may know nothing, or may fail. The sources
here read the image of the module, or ask the symbol engine of the system that the process runs on.
-/
namespace Postmortem

/-- An address whose symbol is looked for, and the module that it lies in. -/
structure SymbolQuery where
  process : ProcessId
  address : UInt64
  moduleBase : UInt64
  contents : ModuleImage

namespace SymbolQuery

/-- The address within the image. -/
def imageAddress? (q : SymbolQuery) : Option UInt64 :=
  q.contents.imageAddress? q.moduleBase q.address

/-- What `find` gives for a part of the module and the address within the image, if both are
there. -/
def search {α β : Type} (q : SymbolQuery) (part : ModuleImage → Option α)
    (find : α → UInt64 → Except LookupError (Option β)) : Except LookupError (Option β) :=
  match part q.contents, q.imageAddress? with
  | some x, some address => find x address
  | _, _ => .ok none

/-- The same search with what was decoded of the module before. -/
def recallSearch {α β : Type} {part : ModuleImage → Option α}
    {find : α → UInt64 → Except LookupError (Option β)} (q : SymbolQuery)
    (way : (x : α) → part q.contents = some x → (address : UInt64) →
      Recall (Decoded q.contents) (find x address)) :
    Recall (Decoded q.contents) (q.search part find) :=
  match hpart : part q.contents, haddress : q.imageAddress? with
  | some x, some address => (way x hpart address).cast (by simp [search, hpart, haddress])
  | some _, none | none, _ => (Recall.pure (.ok none)).cast (by simp [search, *])

/-- Whether checked arithmetic stops while something is looked for in the image. -/
def stopsIn {α : Type} (q : SymbolQuery) (find : Image → UInt64 → Option α) : Bool :=
  match q.contents.image, q.imageAddress? with
  | some image, some address => (find image address).isNone
  | _, _ => false

end SymbolQuery

/-- A name, and how far the address is from where it starts. -/
structure FoundSymbol where
  name : String
  displacement : UInt64
  deriving DecidableEq, Repr

/-- A line of a source file, and how far the address is from where its code starts. -/
structure FoundLine where
  file : String
  line : UInt32
  displacement : UInt64
  deriving DecidableEq, Repr

/-- A source of names and lines. It may have another way to its answers, which uses what was decoded
of the module before, and its arithmetic may stop where it is checked. -/
structure SymbolSource where
  label : String
  symbol : SymbolQuery → Except LookupError (Option FoundSymbol)
  line : SymbolQuery → Except LookupError (Option FoundLine) := fun _ => .ok none
  recallSymbol (q : SymbolQuery) : Recall (Decoded q.contents) (symbol q) := .work symbol q
  recallLine (q : SymbolQuery) : Recall (Decoded q.contents) (line q) := .work line q
  /-- Whether checked arithmetic stops before the symbol is found. -/
  stops : SymbolQuery → Bool := fun _ => false

instance : Inhabited SymbolSource := ⟨{ label := "", symbol := fun _ => .ok none }⟩

/-- The symbol engine of a system. It is asked for addresses of the process. -/
structure NativeSymbolizer where
  symbol? : ProcessId → UInt64 → Option FoundSymbol
  line? : ProcessId → UInt64 → Option FoundLine
  /-- A readable form of a name. -/
  undecorate? : String → Option String

namespace SymbolSource

/-- Symbols of an image in the form of the ones found for an address. -/
def ofMatch (m : SymbolMatch) : FoundSymbol := ⟨m.name, m.displacement⟩

/-- Functions of the image's symbol table. -/
def symbolTable : SymbolSource where
  label := "coff"
  symbol q := q.search (·.image) fun image address =>
    .ok ((image.nearestFunction? address).map ofMatch)
  stops q := q.stopsIn Checked.nearestFunction

/-- A function of the debug information as a symbol. -/
def ofFunction : Except Debug.DebugError (Option Debug.FunctionMatch) →
    Except LookupError (Option FoundSymbol)
  | .ok found => .ok (found.map fun f => ⟨f.name, UInt64.ofNat f.displacement⟩)
  | .error cause => .error (.badDebugInfo cause)

/-- A line of the debug information as one that was found. -/
def ofLine : Except Debug.DebugError (Option Debug.LineMatch) →
    Except LookupError (Option FoundLine)
  | .ok found =>
    .ok (found.map fun l => ⟨l.file, UInt32.ofNat l.line, UInt64.ofNat l.displacement⟩)
  | .error cause => .error (.badDebugInfo cause)

/-- Functions and lines of the debug information. -/
def debugInfo : SymbolSource where
  label := "dwarf"
  symbol q := q.search (·.debug) fun debug address => ofFunction (debug.function? address.toNat)
  line q := q.search (·.debug) fun debug address => ofLine (debug.line? address.toNat)
  recallSymbol q := q.recallSearch fun _ h address =>
    (Decoded.recallFunction h address.toNat).map ofFunction
  recallLine q := q.recallSearch fun _ h address => (Decoded.recallLine h address.toNat).map ofLine

/-- The nearest exported function as a symbol, if the export directory can be read. -/
def ofExport (nearest : Option SymbolMatch) :
    Except ImageError ExportTable → Except LookupError (Option FoundSymbol)
  | .ok _ => .ok (nearest.map ofMatch)
  | .error cause => .error (.ofImageError cause)

/-- Exported functions. -/
def exports : SymbolSource where
  label := "export"
  symbol q := q.search (·.image) fun image address =>
    ofExport (image.nearestExport? address) image.exports
  recallSymbol q := q.recallSearch fun image h address =>
    (Decoded.recallExports h).bind (f := ofExport (image.nearestExport? address)) fun
      | .ok table => (Decoded.recallNearestExport h address).map (ofExport · (.ok table))
      | .error cause => .pure (ofExport _ (.error cause))
  stops q := q.stopsIn fun image address => do
    let _ ← (Checked.exports image).run
    Checked.nearestExport image address

/-- The symbol engine of the system. -/
def native (n : NativeSymbolizer) : SymbolSource where
  label := "native"
  symbol q := .ok ((n.symbol? q.process q.address).filter fun s => s.name ≠ "")
  line q := .ok (n.line? q.process q.address)

end SymbolSource

end Postmortem
