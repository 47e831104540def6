import Postmortem.Module.Decoded

/-!
# Modules that were seen

For every attached process the cache keeps a record of each module that a question led to. What is
in the module is only read when it is needed, and then kept with the record, found or not: later
answers do not change when its file is replaced or its memory changes. What is decoded of it for a
question is kept as well. A record goes when its module is unloaded or its process detached.
-/
namespace Postmortem

/-- What was in a module when it was read, and what was decoded of it since. -/
structure ReadModule where
  contents : ModuleImage
  decoded : Decoded contents := {}

/-- A module that was seen at `base`. It is read once it is asked for what is in it. -/
structure ModuleRecord where
  base : UInt64
  path : Option String
  read : Option ReadModule := none

namespace ModuleRecord

/-- Whether the module was read. -/
def isLoaded (r : ModuleRecord) : Bool := r.read.isSome

/-- What was in the module when it was read, if it was. -/
def contents (r : ModuleRecord) : Option ModuleImage := r.read.map (·.contents)

end ModuleRecord

/-- How much was read and made so far. -/
structure CacheCounters where
  imagesOpened : Nat := 0
  indexesBuilt : Nat := 0
  modulesCreated : Nat := 0
  deriving DecidableEq, Repr, Inhabited

/-- The counters after a module was read. -/
def CacheCounters.count (c : CacheCounters) (m : ModuleImage) : CacheCounters :=
  { c with
    imagesOpened := c.imagesOpened + if m.image.isSome then 1 else 0
    indexesBuilt := c.indexesBuilt + if m.debug.isSome then 1 else 0 }

structure ModuleCache where
  processes : Table ProcessId (Table UInt64 ModuleRecord) := ∅
  counters : CacheCounters := {}

instance : Inhabited ModuleCache := ⟨{}⟩

namespace ModuleCache

def isAttached (c : ModuleCache) (process : ProcessId) : Bool := c.processes.contains process

/-- Starts to keep records for a process. The records of one that is attached already stay. -/
def attach (c : ModuleCache) (process : ProcessId) : ModuleCache :=
  if c.isAttached process then c else { c with processes := c.processes.set process ∅ }

/-- Drops a process and its records, and tells whether it was attached. -/
def detach (c : ModuleCache) (process : ProcessId) : Bool × ModuleCache :=
  if c.isAttached process then (true, { c with processes := c.processes.erase process })
  else (false, c)

/-- How many records a process has. -/
def moduleCount? (c : ModuleCache) (process : ProcessId) : Option Nat :=
  (c.processes.get? process).map (·.size)

/-- The record of the module at a base. -/
def record? (c : ModuleCache) (process : ProcessId) (base : UInt64) : Option ModuleRecord := do
  (← c.processes.get? process).get? base

/-- Puts a record in the place of its base. -/
def keep (c : ModuleCache) (process : ProcessId) (record : ModuleRecord) : ModuleCache :=
  match c.processes.get? process with
  | some records =>
    { c with processes := c.processes.set process (records.set record.base record) }
  | none => c

/-- The record of the module at a base, which is made if there is none. One that is there keeps its
path. -/
def load (c : ModuleCache) (process : ProcessId) (base : UInt64) (path : Option String) :
    Except LookupError ModuleRecord × ModuleCache :=
  if c.isAttached process then
    match c.record? process base with
    | some record => (.ok record, c)
    | none =>
      let record : ModuleRecord := { base, path }
      let counters := { c.counters with modulesCreated := c.counters.modulesCreated + 1 }
      (.ok record, { c.keep process record with counters })
  else (.error (.unknownProcess process), c)

/-- Forgets the module at a base, and tells whether there was a record of it. -/
def unload (c : ModuleCache) (process : ProcessId) (base : UInt64) : Bool × ModuleCache :=
  match c.processes.get? process with
  | some records =>
    if records.contains base then
      (true, { c with processes := c.processes.set process (records.erase base) })
    else (false, c)
  | none => (false, c)

/-- The record of the module that an address lies in, which is made if there is none. -/
def lookup (c : ModuleCache) (processes : ProcessMap) (process : ProcessId) (address : UInt64) :
    Except LookupError ModuleRecord × ModuleCache :=
  if c.isAttached process then
    match processes.moduleBase? process address with
    | none => (.error (.noModule address), c)
    | some base => c.load process base (processes.modulePath? process base)
  else (.error (.unknownProcess process), c)

/-- The module of a record, which is read now if it was not before. -/
def read (c : ModuleCache) (files : Files) (processes : ProcessMap) (limit : Nat)
    (process : ProcessId) (record : ModuleRecord) : ReadModule × ModuleCache :=
  match record.read with
  | some m => (m, c)
  | none =>
    let contents := ModuleImage.build files processes limit process record.base record.path
    let m : ReadModule := { contents }
    (m, { c.keep process { record with read := some m } with
          counters := c.counters.count contents })

end ModuleCache

end Postmortem
