import Mathlib.Tactic.Common
import Postmortem.Proofs.Process.Layout
import Postmortem.Module.Cache

/-!
# The records of one process

Caches keep the same of a process when it is attached in both with the same records, or in neither.
Then an operation on that process gives the same for both, and they still keep the same of it
afterwards. An operation on another process leaves what is kept of it as it is.
-/
namespace Postmortem.ModuleCache

/-- Whether two caches keep the same of a process. -/
def SameFor (p : ProcessId) (c d : ModuleCache) : Prop :=
  c.processes.get? p = d.processes.get? p

/-! The operations on one process as they look from any process. -/

section Records

variable (c : ModuleCache) (p q : ProcessId) (b : UInt64)

theorem get?_attach :
    (c.attach q).processes.get? p =
      if p = q then some ((c.processes.get? p).getD ∅) else c.processes.get? p := by
  unfold attach isAttached Table.contains
  by_cases hp : p = q
  · subst hp
    cases h : c.processes.get? p <;> simp [h]
  · rw [if_neg hp]
    split
    · rfl
    · rw [Table.get?_set, if_neg hp]

theorem get?_detach :
    (c.detach q).2.processes.get? p = if p = q then none else c.processes.get? p := by
  unfold detach isAttached Table.contains
  by_cases hp : p = q
  · subst hp
    cases h : c.processes.get? p <;> simp [h]
  · rw [if_neg hp]
    split
    · rw [Table.get?_erase, if_neg hp]
    · rfl

theorem get?_keep (r : ModuleRecord) :
    (c.keep q r).processes.get? p =
      if p = q then (c.processes.get? p).map (·.set r.base r) else c.processes.get? p := by
  unfold keep
  by_cases hp : p = q
  · subst hp
    cases h : c.processes.get? p <;> simp [h]
  · rw [if_neg hp]
    split
    · rw [Table.get?_set, if_neg hp]
    · rfl

theorem get?_unload :
    (c.unload q b).2.processes.get? p =
      if p = q then
        (c.processes.get? p).map fun records =>
          if records.contains b then records.erase b else records
      else c.processes.get? p := by
  unfold unload
  by_cases hp : p = q
  · subst hp
    cases h : c.processes.get? p with
    | none => simp [h]
    | some records => by_cases hb : records.contains b = true <;> simp [h, hb]
  · rw [if_neg hp]
    split
    · split
      · rw [Table.get?_set, if_neg hp]
      · rfl
    · rfl

end Records

namespace SameFor

variable {c d : ModuleCache} {p q : ProcessId}

section Same

variable (h : SameFor p c d)

include h

theorem isAttached_eq : c.isAttached p = d.isAttached p := by
  unfold isAttached Table.contains
  rw [h]

theorem moduleCount?_eq : c.moduleCount? p = d.moduleCount? p := by
  unfold moduleCount?
  rw [h]

theorem record?_eq (b : UInt64) : c.record? p b = d.record? p b := by
  unfold record?
  rw [h]

theorem attach : SameFor p (c.attach p) (d.attach p) := by
  unfold SameFor
  rw [get?_attach, get?_attach, h]

theorem detach :
    (c.detach p).1 = (d.detach p).1 ∧ SameFor p (c.detach p).2 (d.detach p).2 := by
  constructor
  · unfold ModuleCache.detach
    rw [h.isAttached_eq]
    split <;> rfl
  · unfold SameFor
    rw [get?_detach, get?_detach, if_pos rfl, if_pos rfl]

theorem keep (r : ModuleRecord) : SameFor p (c.keep p r) (d.keep p r) := by
  unfold SameFor
  rw [get?_keep, get?_keep, h]

theorem load (b : UInt64) (path : Option String) :
    (c.load p b path).1 = (d.load p b path).1 ∧
      SameFor p (c.load p b path).2 (d.load p b path).2 := by
  unfold ModuleCache.load
  rw [h.isAttached_eq, h.record?_eq b]
  split
  · split
    · exact ⟨rfl, h⟩
    · exact ⟨rfl, h.keep _⟩
  · exact ⟨rfl, h⟩

theorem unload (b : UInt64) :
    (c.unload p b).1 = (d.unload p b).1 ∧ SameFor p (c.unload p b).2 (d.unload p b).2 := by
  constructor
  · unfold ModuleCache.unload
    rw [h]
    split
    · split <;> rfl
    · rfl
  · unfold SameFor
    rw [get?_unload, get?_unload, h]

theorem lookup {m n : ProcessMap} (hmap : m.layout p = n.layout p) (a : UInt64) :
    (c.lookup m p a).1 = (d.lookup n p a).1 ∧
      SameFor p (c.lookup m p a).2 (d.lookup n p a).2 := by
  unfold ModuleCache.lookup
  rw [h.isAttached_eq, ProcessMap.moduleBase?_congr hmap]
  split
  · split
    · exact ⟨rfl, h⟩
    · rw [ProcessMap.modulePath?_congr hmap]
      exact h.load _ _
  · exact ⟨rfl, h⟩

theorem read {m n : ProcessMap} (hmap : m.layout p = n.layout p) (files : Files) (limit : Nat)
    (r : ModuleRecord) :
    (c.read files m limit p r).1 = (d.read files n limit p r).1 ∧
      SameFor p (c.read files m limit p r).2 (d.read files n limit p r).2 := by
  unfold ModuleCache.read
  split
  · exact ⟨rfl, h⟩
  · have hbuild := ModuleImage.build_congr hmap files limit r.base r.path
    have hkeep : ∀ x y : ModuleImage, x = y →
        SameFor p (c.keep p { r with read := some { contents := x } })
          (d.keep p { r with read := some { contents := y } }) := by
      rintro x _ rfl
      exact h.keep _
    exact ⟨congrArg (fun contents => ({ contents } : ReadModule)) hbuild, hkeep _ _ hbuild⟩

end Same

/-! Another process that an operation is about. -/

section Other

variable (hpq : p ≠ q)

include hpq

theorem of_attach : SameFor p (c.attach q) c := by
  unfold SameFor
  rw [get?_attach, if_neg hpq]

theorem of_detach : SameFor p (c.detach q).2 c := by
  unfold SameFor
  rw [get?_detach, if_neg hpq]

theorem of_keep (r : ModuleRecord) : SameFor p (c.keep q r) c := by
  unfold SameFor
  rw [get?_keep, if_neg hpq]

theorem of_load (b : UInt64) (path : Option String) : SameFor p (c.load q b path).2 c := by
  unfold ModuleCache.load
  split
  · split
    · rfl
    · exact of_keep hpq _
  · rfl

theorem of_unload (b : UInt64) : SameFor p (c.unload q b).2 c := by
  unfold SameFor
  rw [get?_unload, if_neg hpq]

end Other

end SameFor

end Postmortem.ModuleCache
