import Postmortem.File.Path
import Postmortem.Symbolizer.Live

/-!
# Symbols of processes and of files

Besides the symbols of running processes, a symbolizer finds those of image files that no process
has loaded. Each such file is loaded at address zero of a process of its own that does not exist,
so an address there is a distance from the start of the image. Paths that mean the same share a
process, and the file is read once.
-/
namespace Postmortem

/-- Image files that were asked about, each with its process. -/
structure OfflineImages where
  symbolizer : LiveSymbolizer
  processes : ProcessMap := {}
  byPath : Table Path.Meaning ProcessId := ∅

namespace OfflineImages

/-- No images yet; the symbol engine of the system is not asked about files. -/
def start (config : Config) : OfflineImages := { symbolizer := .standard config none }

/-- An image may take up all addresses of 32 bits. -/
def imageSpan : UInt64 := 0x100000000

/-- The process of an image file, which is made up if there is none yet. -/
def processFor (o : OfflineImages) (path : String) : ProcessId × OfflineImages :=
  match o.byPath.get? (Path.meaning path) with
  | some process => (process, o)
  | none =>
    let process : ProcessId := ⟨UInt64.ofNat o.byPath.size⟩
    (process,
     { symbolizer := o.symbolizer.attach process
       processes := o.processes.addModule process 0 imageSpan (some path)
       byPath := o.byPath.set (Path.meaning path) process })

/-- The symbol at a distance from the start of an image. -/
def resolve (o : OfflineImages) (files : Files) (path : String) (rva : UInt64) :
    Except LookupError SymbolInfo × OfflineImages :=
  let (process, o) := o.processFor path
  let (answer, symbolizer) := o.symbolizer.resolve ⟨files, o.processes⟩ process rva
  (answer, { o with symbolizer })

end OfflineImages

/-- A symbolizer for processes and, from the first question about one on, for files. -/
structure Symbolizer where
  live : LiveSymbolizer
  offline : Option OfflineImages := none

namespace Symbolizer

/-- A symbolizer with the given sources, or the usual ones. -/
def create (config : Config) (native : Option NativeSymbolizer) (chain : Option SourceChain) :
    Symbolizer where
  live := { config, native, chain := chain.getD (.standard native) }

/-- Chooses whether names are shown in readable form, for processes and for files. -/
def setDemangle (s : Symbolizer) (demangle : Bool) : Symbolizer where
  live := s.live.setDemangle demangle
  offline := s.offline.map fun o => { o with symbolizer := o.symbolizer.setDemangle demangle }

/-- Does something with the part for processes. -/
def onLive {α : Type} (s : Symbolizer) (f : LiveSymbolizer → α × LiveSymbolizer) :
    α × Symbolizer :=
  let (a, live) := f s.live
  (a, { s with live })

/-- The symbol at a distance from the start of the image in a file. -/
def resolveInFile (s : Symbolizer) (files : Files) (path : String) (rva : UInt64) :
    Except LookupError SymbolInfo × Symbolizer :=
  let (answer, offline) := (s.offline.getD (.start s.live.config)).resolve files path rva
  (answer, { s with offline := some offline })

def counters (s : Symbolizer) : CacheCounters := s.live.cache.counters

/-- The counters of the images that were read from files no process has loaded. -/
def offlineCounters (s : Symbolizer) : CacheCounters :=
  match s.offline with
  | some o => o.symbolizer.cache.counters
  | none => {}

end Symbolizer

end Postmortem
