import Postmortem.Bytes
import Postmortem.Process.Id
import Postmortem.Table

/-!
# What is loaded in processes

A process map says, for each process, which modules are loaded where and which memory can be read.
It answers what a debugger would ask the system: the module at an address, its file, and bytes.
-/
namespace Postmortem

/-- A module as it is loaded: how many addresses it takes up, and its file. -/
structure LoadedModule where
  size : UInt64
  path : Option String
  deriving DecidableEq, Repr

/-- The modules and the readable memory of one process, by their first address. -/
structure ProcessLayout where
  modules : Table UInt64 LoadedModule := ∅
  memory : Table UInt64 Bytes := ∅

instance : Inhabited ProcessLayout := ⟨{}⟩

structure ProcessMap where
  layouts : Table ProcessId ProcessLayout := ∅

instance : Inhabited ProcessMap := ⟨{}⟩

namespace ProcessMap

/-- The layout of a process, which is empty for one that nothing is known of. -/
def layout (m : ProcessMap) (process : ProcessId) : ProcessLayout :=
  (m.layouts.get? process).getD {}

/-- Changes the layout of a process. -/
def update (m : ProcessMap) (process : ProcessId) (f : ProcessLayout → ProcessLayout) :
    ProcessMap :=
  ⟨m.layouts.set process (f (m.layout process))⟩

theorem layout_update (m : ProcessMap) (process other : ProcessId)
    (f : ProcessLayout → ProcessLayout) :
    (m.update process f).layout other =
      if other = process then f (m.layout process) else m.layout other := by
  simp only [layout, update, Table.get?_set]
  split <;> rfl

/-- Loads a module. One that was loaded at the same address gives way to it. -/
def addModule (m : ProcessMap) (process : ProcessId) (base size : UInt64)
    (path : Option String) : ProcessMap :=
  m.update process fun l => { l with modules := l.modules.set base ⟨size, path⟩ }

def hasModule (m : ProcessMap) (process : ProcessId) (base : UInt64) : Bool :=
  (m.layout process).modules.contains base

/-- Unloads the module at a base, and tells whether there was one. -/
def removeModule (m : ProcessMap) (process : ProcessId) (base : UInt64) : Bool × ProcessMap :=
  if m.hasModule process base then
    (true, m.update process fun l => { l with modules := l.modules.erase base })
  else (false, m)

/-- Makes memory readable. What was readable from the same address on gives way to it. -/
def addMemory (m : ProcessMap) (process : ProcessId) (address : UInt64) (bytes : Bytes) :
    ProcessMap :=
  m.update process fun l => { l with memory := l.memory.set address bytes }

/-- The base of the module that an address lies in. -/
def moduleBase? (m : ProcessMap) (process : ProcessId) (address : UInt64) : Option UInt64 := do
  let (base, loaded) ← (m.layout process).modules.atOrBefore? address
  if address - base < loaded.size then some base else none

/-- The file of the module at a base. -/
def modulePath? (m : ProcessMap) (process : ProcessId) (base : UInt64) : Option String := do
  (← (m.layout process).modules.get? base).path

/-- At most `count` bytes of memory from an address on, as far as one range goes; nothing when not
even the byte at the address can be read. -/
def readMemory? (m : ProcessMap) (process : ProcessId) (address : UInt64) (count : Nat) :
    Option Bytes := do
  let (start, bytes) ← (m.layout process).memory.atOrBefore? address
  let skip := (address - start).toNat
  if skip < bytes.size then some (bytes.extract skip (skip + count)) else none

/-- Reads memory from an address on into a buffer. It gives how many bytes were read, and the buffer
with them at its start. -/
def readInto? (m : ProcessMap) (process : ProcessId) (address : UInt64) (buffer : Bytes) :
    Option (Nat × Bytes) :=
  (m.readMemory? process address buffer.size).map fun bytes =>
    (bytes.size, buffer.overwrite 0 bytes)

/-- What is said of memory that cannot be read. -/
def unreadableMessage (address : UInt64) : String :=
  Text.hexMarked address.toNat ++ " is not readable"

end ProcessMap

end Postmortem
