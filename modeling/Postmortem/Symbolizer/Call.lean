import Postmortem.Symbolizer.Session

/-!
# Calls and replies

In a session calls are made one after the other, and each is replied to. Some go to the symbolizer,
some look at what it keeps, and others change or read files, modules and memory.
-/
namespace Postmortem

/-- What a call has to do with. -/
inductive Scope where
  | process (process : ProcessId)
  /-- Settings, sources and files, which all processes share. -/
  | everything
  /-- Image files that no process has loaded, and what is counted of all processes together. -/
  | apart
  deriving DecidableEq, Repr

/-- Whether something of this scope has to do with a process. -/
def Scope.concerns (process : ProcessId) : Scope → Bool
  | .process other => other = process
  | .everything => true
  | .apart => false

def Operation.scope : Operation → Scope
  | attach process | detach process | moduleLoaded process _ | moduleUnloaded process _
  | lookupModule process _ | ask _ process _ => .process process
  | resolveInFile .. => .apart
  | setDemangle _ | addSource _ => .everything
  | report _ request => .process request.process

inductive Call where
  | operation (operation : Operation)
  | loadedFrom (process : ProcessId) (base : UInt64) (path : Option String)
  | isAttached (process : ProcessId)
  | moduleCount (process : ProcessId)
  | record (process : ProcessId) (base : UInt64)
  | counters
  | offlineCounters
  | addModule (process : ProcessId) (base size : UInt64) (path : Option String)
  | removeModule (process : ProcessId) (base : UInt64)
  | addMemory (process : ProcessId) (address : UInt64) (bytes : Bytes)
  | moduleBase (process : ProcessId) (address : UInt64)
  | modulePath (process : ProcessId) (base : UInt64)
  | readMemory (process : ProcessId) (address : UInt64) (count : Nat)
  /-- Files are replaced by others or removed. Images that were opened before keep their bytes. -/
  | changeFiles (change : Files → Files)

def Call.scope : Call → Scope
  | operation asked => asked.scope
  | loadedFrom process .. | isAttached process | moduleCount process | record process _
  | addModule process .. | removeModule process _ | addMemory process .. | moduleBase process _
  | modulePath process _ | readMemory process .. => .process process
  | counters | offlineCounters => .apart
  | changeFiles _ => .everything

/-- Whether a call has to do with a process. -/
def Call.concerns (process : ProcessId) (call : Call) : Bool := call.scope.concerns process

inductive Reply where
  | done
  | flag (value : Bool)
  | count (modules : Option Nat)
  | module (record : Except LookupError ModuleRecord)
  | kept (record : Option ModuleRecord)
  | symbol (info : Except LookupError SymbolInfo)
  | counters (counters : CacheCounters)
  | base (base : Option UInt64)
  | path (path : Option String)
  | memory (bytes : Option Bytes)
  | text (report : String)

namespace Symbolizer

/-- The reply to an operation. -/
def reply (w : World) (s : Symbolizer) : Operation → Reply
  | .attach _ | .setDemangle _ | .addSource _ => .done
  | .detach process => .flag (s.onLive (·.detach process)).1
  | .moduleLoaded process base => .module (s.onLive (·.moduleLoaded w process base)).1
  | .moduleUnloaded process base => .flag (s.onLive (·.moduleUnloaded process base)).1
  | .lookupModule process address => .module (s.onLive (·.lookupModule w process address)).1
  | .ask k process address => .symbol (s.onLive (k.ask w process address)).1
  | .resolveInFile path rva => .symbol (s.resolveInFile w.files path rva).1
  | .report config request => .text (s.onLive fun live => request.write w config live).1

end Symbolizer

namespace Session

/-- The session in which modules or memory of processes are changed. -/
def changeProcesses (s : Session) (change : ProcessMap → ProcessMap) : Session :=
  s.step (.change { s.world with processes := change s.world.processes })

/-- The session after a call. -/
def after (s : Session) : Call → Session
  | .operation operation => s.step (.operation operation)
  | .loadedFrom process base path => s.step (.loadedFrom process base path)
  | .addModule process base size path => s.changeProcesses (·.addModule process base size path)
  | .removeModule process base => s.changeProcesses fun m => (m.removeModule process base).2
  | .addMemory process address bytes => s.changeProcesses (·.addMemory process address bytes)
  | .changeFiles change => s.step (.change { s.world with files := change s.world.files })
  | .isAttached _ | .moduleCount _ | .record .. | .counters | .offlineCounters | .moduleBase ..
  | .modulePath .. | .readMemory .. => s

/-- The reply to a call. -/
def reply (s : Session) : Call → Reply
  | .operation operation => s.symbolizer.reply s.world operation
  | .loadedFrom process base path =>
    .module (s.symbolizer.onLive (·.moduleLoadedFrom process base path)).1
  | .isAttached process => .flag (s.cache.isAttached process)
  | .moduleCount process => .count (s.cache.moduleCount? process)
  | .record process base => .kept (s.cache.record? process base)
  | .counters => .counters s.symbolizer.counters
  | .offlineCounters => .counters s.symbolizer.offlineCounters
  | .removeModule process base => .flag (s.world.processes.removeModule process base).1
  | .moduleBase process address => .base (s.world.processes.moduleBase? process address)
  | .modulePath process base => .path (s.world.processes.modulePath? process base)
  | .readMemory process address count =>
    .memory (s.world.processes.readMemory? process address count)
  | .addModule .. | .addMemory .. | .changeFiles _ => .done

/-- Calls with the replies to them. -/
def replies : Session → List Call → List (Call × Reply)
  | _, [] => []
  | s, call :: rest => (call, s.reply call) :: (s.after call).replies rest

/-- The session after calls. -/
def afterAll (s : Session) (calls : List Call) : Session := calls.foldl after s

end Session

end Postmortem
