import Postmortem.Report.Frame
import Postmortem.Symbolizer.Basic

/-!
# Sessions

A session is a symbolizer in a world. The symbolizer is told what happens to processes and modules,
it is asked about addresses, and reports are written with it. Meanwhile files, modules and memory
may change in any way.
-/
namespace Postmortem

/-- What may be asked about an address of a process. -/
inductive Question where
  /-- The symbol that the sources know. -/
  | symbol
  /-- The nearest function of the image's own tables. -/
  | ownSymbol
  deriving DecidableEq, Repr

namespace Question

/-- Asks a symbolizer about an address. -/
def ask (k : Question) (w : World) (process : ProcessId) (address : UInt64) (s : LiveSymbolizer) :
    Except LookupError SymbolInfo × LiveSymbolizer :=
  match k with
  | symbol => s.resolve w process address
  | ownSymbol => s.lookupExport w process address

end Question

namespace Report

/-- A report for which addresses are looked up. -/
inductive Request where
  | frame (process : ProcessId) (arch : Architecture) (isCaller : Bool) (f : StackFrame)
  | stack (process : ProcessId) (arch : Architecture) (fs : List StackFrame)
  | crash (process : ProcessId) (context : RegisterContext) (fs : List StackFrame)
  | exception (process : ProcessId) (image : Option String) (arch : Architecture)
      (e : ExceptionRecord)

/-- The process that a report is about. -/
def Request.process : Request → ProcessId
  | frame process .. | stack process .. | crash process .. | exception process .. => process

/-- The text of a report. -/
def Request.write (w : World) (config : RenderConfig) (s : LiveSymbolizer) :
    Request → String × LiveSymbolizer
  | frame process arch isCaller f => Report.frame w config process arch isCaller f s
  | stack process arch fs => Report.stack w config process arch fs s
  | crash process context fs => Report.crash w config process context fs s
  | exception process image arch e => Report.exception w process image arch e s

end Report

/-- What a symbolizer is told or asked. -/
inductive Operation where
  | attach (process : ProcessId)
  | detach (process : ProcessId)
  | moduleLoaded (process : ProcessId) (base : UInt64)
  | moduleUnloaded (process : ProcessId) (base : UInt64)
  | lookupModule (process : ProcessId) (address : UInt64)
  | ask (k : Question) (process : ProcessId) (address : UInt64)
  | resolveInFile (path : String) (rva : UInt64)
  | setDemangle (demangle : Bool)
  | addSource (source : SymbolSource)
  | report (config : RenderConfig) (request : Report.Request)

namespace Symbolizer

/-- The symbolizer after an operation. -/
def perform (w : World) (s : Symbolizer) : Operation → Symbolizer
  | .attach process => { s with live := s.live.attach process }
  | .detach process => (s.onLive (·.detach process)).2
  | .moduleLoaded process base => (s.onLive (·.moduleLoaded w process base)).2
  | .moduleUnloaded process base => (s.onLive (·.moduleUnloaded process base)).2
  | .lookupModule process address => (s.onLive (·.lookupModule w process address)).2
  | .ask k process address => (s.onLive (k.ask w process address)).2
  | .resolveInFile path rva => (s.resolveInFile w.files path rva).2
  | .setDemangle demangle => s.setDemangle demangle
  | .addSource source => { s with live := s.live.addSource source }
  | .report config request => (s.onLive fun live => request.write w config live).2

/-- The symbolizer after operations in a world that does not change. -/
def performAll (w : World) (s : Symbolizer) (operations : List Operation) : Symbolizer :=
  operations.foldl (perform w) s

end Symbolizer

/-- What happens in a session. -/
inductive Event where
  | operation (operation : Operation)
  /-- A module was loaded, and which file it has is known from elsewhere. -/
  | loadedFrom (process : ProcessId) (base : UInt64) (path : Option String)
  /-- Files, modules or memory are now as they are in `world`. -/
  | change (world : World)

structure Session where
  world : World
  symbolizer : Symbolizer

namespace Session

/-- A session that begins with a symbolizer that was told nothing yet. -/
def start (world : World) (config : Config) (native : Option NativeSymbolizer)
    (chain : Option SourceChain) : Session :=
  ⟨world, .create config native chain⟩

/-- The cache of the symbolizer. -/
def cache (s : Session) : ModuleCache := s.symbolizer.live.cache

/-- The session after an event. -/
def step (s : Session) : Event → Session
  | .operation operation => { s with symbolizer := s.symbolizer.perform s.world operation }
  | .loadedFrom process base path =>
    { s with symbolizer := (s.symbolizer.onLive (·.moduleLoadedFrom process base path)).2 }
  | .change world => { s with world }

/-- The session after events. -/
def run (s : Session) (events : List Event) : Session := events.foldl step s

end Session

end Postmortem
