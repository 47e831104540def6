import Mathlib.Tactic.Common
import Postmortem.Module.Cache

/-!
# What the cache operations do to records

A cache is seen through three questions: whether a process is attached, which record there is at a
base, and what the counters are. The lemmas here answer them after each operation. Everything that
makes or changes a record puts it in its place with `keep`.
-/
namespace Postmortem.ModuleCache

variable (c : ModuleCache) (p q : ProcessId) (a b : UInt64)

theorem isAttached_iff : c.isAttached p = true ↔ ∃ records, c.processes.get? p = some records :=
  Option.isSome_iff_exists

/-- Only attached processes have records. -/
theorem isAttached_of_record? {r : ModuleRecord} (h : c.record? p b = some r) :
    c.isAttached p = true := by
  obtain ⟨records, hp, _⟩ := Option.bind_eq_some_iff.mp h
  exact (c.isAttached_iff p).mpr ⟨records, hp⟩

theorem record?_of_not_isAttached (h : ¬ c.isAttached p = true) : c.record? p b = none := by
  by_contra hr
  obtain ⟨r, hr⟩ := Option.ne_none_iff_exists'.mp hr
  exact h (c.isAttached_of_record? p b hr)

section Attach

theorem isAttached_attach :
    (c.attach p).isAttached q = true ↔ q = p ∨ c.isAttached q = true := by
  unfold attach
  by_cases h : c.isAttached p = true
  · rw [if_pos h]
    constructor
    · exact Or.inr
    · rintro (rfl | hq)
      · exact h
      · exact hq
  · rw [if_neg h]
    simp only [isAttached, Table.contains, Table.get?_set]
    by_cases hq : q = p <;> simp [hq]

/-- Attaching a process changes no record: one that is new has none. -/
@[simp] theorem record?_attach : (c.attach p).record? q b = c.record? q b := by
  unfold attach
  by_cases h : c.isAttached p = true
  · rw [if_pos h]
  · rw [if_neg h]
    by_cases hq : q = p
    · subst hq
      rw [c.record?_of_not_isAttached q b h]
      simp [record?]
    · simp [record?, hq]

@[simp] theorem counters_attach : (c.attach p).counters = c.counters := by
  unfold attach
  split <;> rfl

end Attach

section Detach

theorem detach_fst : (c.detach p).1 = c.isAttached p := by
  unfold detach
  split <;> simp_all

theorem isAttached_detach :
    (c.detach p).2.isAttached q = true ↔ q ≠ p ∧ c.isAttached q = true := by
  unfold detach
  by_cases h : c.isAttached p = true
  · rw [if_pos h]
    simp only [isAttached, Table.contains, Table.get?_erase]
    by_cases hq : q = p <;> simp [hq]
  · rw [if_neg h]
    constructor
    · intro hq
      refine ⟨?_, hq⟩
      rintro rfl
      exact h hq
    · exact And.right

/-- Detaching a process drops its records and no others. -/
theorem record?_detach :
    (c.detach p).2.record? q b = if q = p then none else c.record? q b := by
  unfold detach
  by_cases h : c.isAttached p = true
  · rw [if_pos h]
    by_cases hq : q = p <;> simp [record?, hq]
  · rw [if_neg h]
    by_cases hq : q = p
    · subst hq
      simpa using c.record?_of_not_isAttached q b h
    · simp [hq]

theorem record?_of_record?_detach {r : ModuleRecord}
    (h : (c.detach p).2.record? q b = some r) : c.record? q b = some r := by
  rw [record?_detach] at h
  split at h
  · cases h
  · exact h

@[simp] theorem counters_detach : (c.detach p).2.counters = c.counters := by
  unfold detach
  split <;> rfl

end Detach

section Keep

variable (r : ModuleRecord)

@[simp] theorem isAttached_keep : (c.keep p r).isAttached q = c.isAttached q := by
  unfold keep
  cases hp : c.processes.get? p with
  | none => rfl
  | some records =>
    simp only [isAttached, Table.contains, Table.get?_set]
    by_cases hq : q = p <;> simp [hq, hp]

theorem record?_keep (h : c.isAttached p = true) :
    (c.keep p r).record? q b = if q = p ∧ b = r.base then some r else c.record? q b := by
  obtain ⟨records, hp⟩ := (c.isAttached_iff p).mp h
  unfold keep
  simp only [hp, record?, Table.get?_set]
  by_cases hq : q = p
  · subst hq
    by_cases hb : b = r.base <;> simp [hb, hp]
  · simp [hq]

@[simp] theorem counters_keep : (c.keep p r).counters = c.counters := by
  unfold keep
  split <;> rfl

/-- A record that is put in the place of another one leaves no trace of it. -/
theorem keep_keep (first : ModuleRecord) (h : first.base = r.base) :
    (c.keep p first).keep p r = c.keep p r := by
  unfold keep
  cases hp : c.processes.get? p with
  | none => simp [hp]
  | some records => simp [Table.set_set, h]

/-- The counters have no part in where a record is put. -/
theorem keep_with_counters (n : CacheCounters) :
    { c with counters := n }.keep p r = { c.keep p r with counters := n } := by
  unfold keep
  dsimp only
  split <;> rfl

theorem keep_with_own_counters : { c.keep p r with counters := c.counters } = c.keep p r := by
  rw [← c.counters_keep p r]

end Keep

section Load

variable (path : Option String)

theorem load_of_not_isAttached (h : ¬ c.isAttached p = true) :
    c.load p b path = (.error (.unknownProcess p), c) := by
  rw [load, if_neg h]

/-- Loading a module that was seen before changes nothing. -/
theorem load_of_record? {r : ModuleRecord} (h : c.record? p b = some r) :
    c.load p b path = (.ok r, c) := by
  rw [load, if_pos (c.isAttached_of_record? p b h), h]

/-- Loading a module that was not seen before makes a record of it. -/
theorem load_of_new (hp : c.isAttached p = true) (h : c.record? p b = none) :
    c.load p b path = (.ok { base := b, path },
      { c.keep p { base := b, path } with
        counters := { c.counters with modulesCreated := c.counters.modulesCreated + 1 } }) := by
  rw [load, if_pos hp, h]

/-- The record that a loaded module has: the one there is, or else a new one. -/
def loaded : ModuleRecord := (c.record? p b).getD { base := b, path }

theorem load_fst (hp : c.isAttached p = true) : (c.load p b path).1 = .ok (c.loaded p b path) := by
  cases h : c.record? p b with
  | some r => rw [c.load_of_record? p b path h, loaded, h, Option.getD_some]
  | none => rw [c.load_of_new p b path hp h, loaded, h, Option.getD_none]

@[simp] theorem isAttached_load : (c.load p b path).2.isAttached q = c.isAttached q := by
  by_cases hp : c.isAttached p = true
  · cases h : c.record? p b with
    | some r => rw [c.load_of_record? p b path h]
    | none =>
      rw [c.load_of_new p b path hp h]
      exact c.isAttached_keep p q _
  · rw [c.load_of_not_isAttached p b path hp]

theorem record?_load (hp : c.isAttached p = true) :
    (c.load p b path).2.record? q a =
      if q = p ∧ a = b then some (c.loaded p b path) else c.record? q a := by
  cases h : c.record? p b with
  | some r =>
    rw [c.load_of_record? p b path h, loaded, h, Option.getD_some]
    by_cases hqa : q = p ∧ a = b
    · rw [if_pos hqa, hqa.1, hqa.2, h]
    · rw [if_neg hqa]
  | none =>
    rw [c.load_of_new p b path hp h, loaded, h, Option.getD_none]
    exact c.record?_keep p q a _ hp

/-- Only the number of records that were made changes, and only with a new record. -/
theorem counters_load (hp : c.isAttached p = true) :
    (c.load p b path).2.counters =
      { c.counters with
        modulesCreated :=
          c.counters.modulesCreated + if (c.record? p b).isSome then 0 else 1 } := by
  cases h : c.record? p b with
  | some r => simp [c.load_of_record? p b path h]
  | none => simp [c.load_of_new p b path hp h]

theorem keep_load (hp : c.isAttached p = true) (r : ModuleRecord)
    (hr : r.base = (c.loaded p b path).base) :
    (c.load p b path).2.keep p r =
      { c.keep p r with
        counters :=
          { c.counters with
            modulesCreated :=
              c.counters.modulesCreated + if (c.record? p b).isSome then 0 else 1 } } := by
  unfold loaded at hr
  cases h : c.record? p b with
  | some found =>
    rw [c.load_of_record? p b path h]
    exact (c.keep_with_own_counters p r).symm
  | none =>
    rw [h, Option.getD_none] at hr
    rw [c.load_of_new p b path hp h]
    dsimp only
    rw [keep_with_counters, keep_keep _ _ _ _ hr.symm]
    rfl

end Load

section Read

variable (files : Files) (processes : ProcessMap) (limit : Nat) (r : ModuleRecord)

/-- A module that was read before is not read again. -/
theorem read_contents :
    (c.read files processes limit p r).1.contents =
      r.contents.getD (.build files processes limit p r.base r.path) := by
  unfold read ModuleRecord.contents
  cases hm : r.read with
  | some m => rfl
  | none => rfl

theorem keep_read (later : ModuleRecord) (hr : later.base = r.base) :
    (c.read files processes limit p r).2.keep p later =
      { c.keep p later with
        counters :=
          if r.isLoaded then c.counters
          else c.counters.count (c.read files processes limit p r).1.contents } := by
  unfold read ModuleRecord.isLoaded
  cases hm : r.read with
  | some m =>
    exact (c.keep_with_own_counters p later).symm
  | none =>
    dsimp only
    rw [keep_with_counters, keep_keep _ _ _ _ (by exact hr.symm)]
    rfl

end Read

section Unload

theorem unload_fst : (c.unload p b).1 = (c.record? p b).isSome := by
  unfold unload record?
  cases hp : c.processes.get? p with
  | none => rfl
  | some records =>
    change (if records.contains b = true then _ else _ : Bool × ModuleCache).1 = records.contains b
    split <;> simp_all

/-- Without a record there is nothing to unload. -/
theorem unload_snd_of_no_record (h : c.record? p b = none) : (c.unload p b).2 = c := by
  unfold unload
  cases hp : c.processes.get? p with
  | none => rfl
  | some records =>
    have hb : ¬ records.contains b = true := by simpa [record?, hp, Table.contains] using h
    dsimp only
    rw [if_neg hb]

/-- Unloading a module drops its record and no other one. -/
theorem record?_unload :
    (c.unload p b).2.record? q a = if q = p ∧ a = b then none else c.record? q a := by
  unfold unload
  cases hp : c.processes.get? p with
  | none =>
    by_cases hq : q = p
    · simp [record?, hq, hp]
    · simp [hq]
  | some records =>
    by_cases hb : records.contains b = true
    · simp only [hb, if_true, record?, Table.get?_set]
      by_cases hq : q = p
      · subst hq
        by_cases ha : a = b <;> simp [ha, hp]
      · simp [hq]
    · simp only [hb]
      by_cases h : q = p ∧ a = b
      · obtain ⟨rfl, rfl⟩ := h
        simpa [record?, hp, Table.contains] using hb
      · simp [h]

theorem record?_of_record?_unload {r : ModuleRecord}
    (h : (c.unload p b).2.record? q a = some r) : c.record? q a = some r := by
  rw [record?_unload] at h
  split at h
  · cases h
  · exact h

@[simp] theorem isAttached_unload : (c.unload p b).2.isAttached q = c.isAttached q := by
  unfold unload
  cases hp : c.processes.get? p with
  | none => rfl
  | some records =>
    dsimp only
    split
    · simp only [isAttached, Table.contains, Table.get?_set]
      by_cases hq : q = p <;> simp [hq, hp]
    · rfl

@[simp] theorem counters_unload : (c.unload p b).2.counters = c.counters := by
  unfold unload
  split
  · split <;> rfl
  · rfl

end Unload

/-- Every record is in the place of its base. -/
def Keyed : Prop := ∀ p b r, c.record? p b = some r → r.base = b

section Keyed

variable {c} {p b}

theorem keyed_empty : Keyed {} := by
  intro p b r h
  simp [record?] at h

theorem Keyed.attach (h : c.Keyed) : (c.attach p).Keyed := by
  intro q a r hr
  exact h q a r (by simpa using hr)

theorem Keyed.detach (h : c.Keyed) : (c.detach p).2.Keyed := by
  intro q a r hr
  exact h q a r (c.record?_of_record?_detach p q a hr)

theorem Keyed.unload (h : c.Keyed) : (c.unload p b).2.Keyed := by
  intro q a r hr
  exact h q a r (c.record?_of_record?_unload p q a b hr)

theorem Keyed.keep {first : ModuleRecord} (h : c.Keyed) : (c.keep p first).Keyed := by
  intro q a r hr
  by_cases hp : c.isAttached p = true
  · rw [c.record?_keep p q a first hp] at hr
    split at hr
    · next hqa => rw [← Option.some.inj hr, hqa.2]
    · exact h q a r hr
  · have hn : c.processes.get? p = none := by simpa [isAttached, Table.contains] using hp
    rw [ModuleCache.keep, hn] at hr
    exact h q a r hr

theorem Keyed.load {path : Option String} (h : c.Keyed) : (c.load p b path).2.Keyed := by
  by_cases hp : c.isAttached p = true
  · cases hr : c.record? p b with
    | some r => rwa [c.load_of_record? p b path hr]
    | none =>
      rw [c.load_of_new p b path hp hr]
      exact Keyed.keep h
  · rwa [c.load_of_not_isAttached p b path hp]

theorem Keyed.loaded_base (h : c.Keyed) (path : Option String) : (c.loaded p b path).base = b := by
  unfold loaded
  cases hr : c.record? p b with
  | some r => exact h p b r hr
  | none => rfl

end Keyed

end Postmortem.ModuleCache
