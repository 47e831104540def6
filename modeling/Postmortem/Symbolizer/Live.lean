import Postmortem.Config.Basic
import Postmortem.Demangle.Basic
import Postmortem.Module.Cache
import Postmortem.Symbol.Chain

/-!
# Symbols of a running process

A live symbolizer finds the module of an address, reads what is in it when that is needed, and asks
its sources in order. What it reads it keeps, so every question gives the symbolizer as it is
afterwards. Files and processes belong to the world and are given with the question.
-/
namespace Postmortem

/-- Files, and what is loaded in processes. -/
structure World where
  files : Files := {}
  processes : ProcessMap := {}

instance : Inhabited World := ⟨{}⟩

/-- What is known of an address. -/
structure SymbolInfo where
  /-- The name as it is shown. -/
  name : String
  /-- The name as its source has it. -/
  rawName : String
  displacement : UInt64
  location : Option (String × UInt32)
  moduleBase : UInt64
  modulePath : Option String
  source : String
  deriving DecidableEq, Repr

structure LiveSymbolizer where
  config : Config
  native : Option NativeSymbolizer
  chain : SourceChain
  cache : ModuleCache := {}

namespace LiveSymbolizer

/-- A symbolizer with the usual sources. -/
def standard (config : Config) (native : Option NativeSymbolizer) : LiveSymbolizer :=
  { config, native, chain := .standard native }

/-- A name as it is shown: in readable form if that is wanted and there is one. -/
def displayName (s : LiveSymbolizer) (raw : String) : String :=
  if s.config.demangle then
    ((demangle? s.config.demangleStyle raw).or (s.native.bind fun n => n.undecorate? raw)).getD raw
  else raw

/-- The size of the largest image that is read. -/
def imageLimit (s : LiveSymbolizer) : Nat := s.config.images.maxImageSize.toNat

def setDemangle (s : LiveSymbolizer) (demangle : Bool) : LiveSymbolizer :=
  { s with config := { s.config with demangle } }

/-- Adds a source after the others. -/
def addSource (s : LiveSymbolizer) (source : SymbolSource) : LiveSymbolizer :=
  { s with chain := s.chain ++ [source] }

def attach (s : LiveSymbolizer) (process : ProcessId) : LiveSymbolizer :=
  { s with cache := s.cache.attach process }

def detach (s : LiveSymbolizer) (process : ProcessId) : Bool × LiveSymbolizer :=
  let (wasAttached, cache) := s.cache.detach process
  (wasAttached, { s with cache })

/-- Makes a record of a module that was loaded with the given file. -/
def moduleLoadedFrom (s : LiveSymbolizer) (process : ProcessId) (base : UInt64)
    (path : Option String) : Except LookupError ModuleRecord × LiveSymbolizer :=
  let (answer, cache) := s.cache.load process base path
  (answer, { s with cache })

/-- Makes a record of a module that was loaded. -/
def moduleLoaded (s : LiveSymbolizer) (w : World) (process : ProcessId) (base : UInt64) :
    Except LookupError ModuleRecord × LiveSymbolizer :=
  s.moduleLoadedFrom process base (w.processes.modulePath? process base)

/-- Forgets a module that was unloaded, and tells whether there was a record of it. -/
def moduleUnloaded (s : LiveSymbolizer) (process : ProcessId) (base : UInt64) :
    Bool × LiveSymbolizer :=
  let (wasKept, cache) := s.cache.unload process base
  (wasKept, { s with cache })

/-- The record of the module that an address lies in. -/
def lookupModule (s : LiveSymbolizer) (w : World) (process : ProcessId) (address : UInt64) :
    Except LookupError ModuleRecord × LiveSymbolizer :=
  let (answer, cache) := s.cache.lookup w.processes process address
  (answer, { s with cache })

/-- The module that an address lies in and what is in it. -/
def lookupContents (s : LiveSymbolizer) (w : World) (process : ProcessId) (address : UInt64) :
    Except LookupError (ModuleRecord × ReadModule) × LiveSymbolizer :=
  match s.lookupModule w process address with
  | (.error e, s) => (.error e, s)
  | (.ok record, s) =>
    let (m, cache) := s.cache.read w.files w.processes s.imageLimit process record
    (.ok (record, m), { s with cache })

/-- Keeps a module with what was decoded of it. -/
def remember (s : LiveSymbolizer) (process : ProcessId) (record : ModuleRecord) (m : ReadModule) :
    LiveSymbolizer :=
  { s with cache := s.cache.keep process { record with read := some m } }

/-- What is known of an address of which the symbol was found. -/
def info (s : LiveSymbolizer) (record : ModuleRecord) (answer : ChainAnswer) : SymbolInfo where
  name := s.displayName answer.symbol.name
  rawName := answer.symbol.name
  displacement := answer.symbol.displacement
  location := answer.line.map fun l => (l.file, l.line)
  moduleBase := record.base
  modulePath := record.path
  source := answer.source

/-- What is known of an address of which the symbol was found, or that there was none. -/
def outcome (s : LiveSymbolizer) (record : ModuleRecord) :
    Option ChainAnswer → Except LookupError SymbolInfo
  | some answer => .ok (s.info record answer)
  | none => .error .notFound

/-- What is known of an address whose symbol is looked for in the given way. -/
def ask (s : LiveSymbolizer) (w : World) (process : ProcessId) (address : UInt64)
    {answer : SymbolQuery → Option ChainAnswer}
    (find : (q : SymbolQuery) → Recall (Decoded q.contents) (answer q)) :
    Except LookupError SymbolInfo × LiveSymbolizer :=
  match s.lookupContents w process address with
  | (.error e, s) => (.error e, s)
  | (.ok (record, m), s) =>
    let (answer, decoded) :=
      (find ⟨process, address, record.base, m.contents⟩).run m.decoded
    (s.outcome record answer, s.remember process record ⟨m.contents, decoded⟩)

/-- The symbol of an address. -/
def resolve (s : LiveSymbolizer) (w : World) (process : ProcessId) (address : UInt64) :
    Except LookupError SymbolInfo × LiveSymbolizer :=
  s.ask w process address s.chain.recallAnswer

/-- The nearest exported function or function of the symbol table. Neither debug information nor
the sources are asked. -/
def lookupExport (s : LiveSymbolizer) (w : World) (process : ProcessId) (address : UInt64) :
    Except LookupError SymbolInfo × LiveSymbolizer :=
  s.ask w process address ImageSymbol.recallAnswer

end LiveSymbolizer

end Postmortem
