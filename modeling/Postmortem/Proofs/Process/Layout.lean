import Postmortem.Module.Image

/-!
# One process of a process map

What a process map says of a process is in the layout of that process, so maps with the same layout
say the same of it, and the same image is read. A change of one process leaves the layouts of the
others as they are.
-/
namespace Postmortem

namespace ProcessMap

theorem le_of_moduleBase? {m : ProcessMap} {p : ProcessId} {a b : UInt64}
    (h : m.moduleBase? p a = some b) : b ≤ a := by
  obtain ⟨⟨base, loaded⟩, hfound, hbase⟩ := Option.bind_eq_some_iff.mp h
  dsimp only at hbase
  split at hbase
  · obtain rfl := Option.some.inj hbase
    exact (Table.mem_of_atOrBefore? hfound).2
  · cases hbase

section Congr

variable {m n : ProcessMap} {p : ProcessId} (h : m.layout p = n.layout p)

include h

theorem moduleBase?_congr (a : UInt64) : m.moduleBase? p a = n.moduleBase? p a := by
  rw [moduleBase?, moduleBase?, h]

theorem modulePath?_congr (b : UInt64) : m.modulePath? p b = n.modulePath? p b := by
  rw [modulePath?, modulePath?, h]

theorem readMemory?_congr (a : UInt64) (count : Nat) :
    m.readMemory? p a count = n.readMemory? p a count := by
  rw [readMemory?, readMemory?, h]

/-- The same change of the process leaves the same layout. -/
theorem layout_update_congr (f : ProcessLayout → ProcessLayout) :
    (m.update p f).layout p = (n.update p f).layout p := by
  rw [layout_update, layout_update, h]

theorem removeModule_congr (b : UInt64) :
    (m.removeModule p b).1 = (n.removeModule p b).1 ∧
      (m.removeModule p b).2.layout p = (n.removeModule p b).2.layout p := by
  unfold removeModule hasModule
  rw [h]
  split
  · exact ⟨rfl, layout_update_congr h _⟩
  · exact ⟨rfl, h⟩

end Congr

section Other

variable (m : ProcessMap) {p q : ProcessId} (hpq : p ≠ q)

include hpq

theorem layout_update_other (f : ProcessLayout → ProcessLayout) :
    (m.update q f).layout p = m.layout p := by
  rw [layout_update, if_neg hpq]

theorem layout_removeModule_other (b : UInt64) :
    (m.removeModule q b).2.layout p = m.layout p := by
  unfold removeModule
  split
  · exact m.layout_update_other hpq _
  · rfl

end Other

end ProcessMap

namespace ModuleImage

variable {m n : ProcessMap} {p : ProcessId} (h : m.layout p = n.layout p)

include h

theorem copyPages_congr (b : UInt64) (size : Nat) :
    copyPages m p b size = copyPages n p b size := by
  simp only [copyPages, ProcessMap.readMemory?_congr h]

/-- What is read of a module depends on the files and on the memory of its process alone. -/
theorem build_congr (files : Files) (limit : Nat) (b : UInt64) (path : Option String) :
    build files m limit p b path = build files n limit p b path := by
  simp only [build, find?, ofMemory, ProcessMap.readMemory?_congr h, copyPages_congr h]

end ModuleImage

end Postmortem
