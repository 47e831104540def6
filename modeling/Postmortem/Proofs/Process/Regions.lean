import Mathlib.Data.List.Induction
import Mathlib.Data.List.Pairwise
import Postmortem.Proofs.Bytes
import Postmortem.Process.Map

/-!
# Regions of a process

A process map looks for the module or the memory at an address through the nearest start before it.
As long as regions have bytes and share none, that is the region which has the address, wherever in
the address space it ends. What regions there are follows from the last change that has to do with
each of their starts.
-/
namespace Postmortem

/-- Whether a region of `size` bytes that begins at `start` has the byte at an address. -/
def Covers (start : UInt64) (size : Nat) (address : UInt64) : Prop :=
  start.toNat ≤ address.toNat ∧ address.toNat < start.toNat + size

instance (start : UInt64) (size : Nat) (address : UInt64) : Decidable (Covers start size address) :=
  inferInstanceAs (Decidable (_ ∧ _))

theorem covers_iff_sub_lt {start address : UInt64} {size : Nat} :
    Covers start size address ↔ start ≤ address ∧ (address - start).toNat < size := by
  rw [Covers, UInt64.le_iff_toNat_le]
  constructor
  · rintro ⟨hle, hlt⟩
    rw [UInt64.toNat_sub_of_le _ _ (UInt64.le_iff_toNat_le.mpr hle)]
    omega
  · rintro ⟨hle, hlt⟩
    rw [UInt64.toNat_sub_of_le _ _ (UInt64.le_iff_toNat_le.mpr hle)] at hlt
    omega

/-- Regions that have at least one byte each and no byte in common. `has` tells where regions begin
and how large they are. -/
structure SeparateRegions (has : UInt64 → Nat → Prop) : Prop where
  size_pos : ∀ start size, has start size → 0 < size
  start_unique : ∀ start size start' size' address, has start size → has start' size' →
    Covers start size address → Covers start' size' address → start = start'

namespace Table

variable {α : Type} {t : Table UInt64 α} {address start : UInt64} {a : α}

theorem le_later (a b : UInt64 × α) : a.1 ≤ (later a b).1 ∧ b.1 ≤ (later a b).1 := by
  unfold later
  split
  · next hlt => exact ⟨UInt64.le_of_lt hlt, UInt64.le_refl _⟩
  · next hle => exact ⟨UInt64.le_refl _, UInt64.not_lt.mp hle⟩

/-- No entry is later than the latest one. -/
theorem exists_foldl_later (entries : List (UInt64 × α)) (first : UInt64 × α) :
    ∃ last, entries.foldl (fun best e => some (best.elim e (later · e))) (some first) = some last ∧
      ∀ e ∈ first :: entries, e.1 ≤ last.1 := by
  induction entries generalizing first with
  | nil => exact ⟨first, rfl, by simp⟩
  | cons second rest ih =>
    obtain ⟨last, hlast, hle⟩ := ih (later first second)
    obtain ⟨hlater, hrest⟩ := List.forall_mem_cons.mp hle
    obtain ⟨hfirst, hsecond⟩ := le_later first second
    refine ⟨last, hlast, ?_⟩
    rw [List.forall_mem_cons, List.forall_mem_cons]
    exact ⟨UInt64.le_trans hfirst hlater, UInt64.le_trans hsecond hlater, hrest⟩

theorem atOrBefore?_eq_none_iff :
    t.atOrBefore? address = none ↔ ∀ start a, t.get? start = some a → address < start := by
  have hnone : t.atOrBefore? address = none ↔ t.entries.filter (fun e => e.1 ≤ address) = [] := by
    unfold atOrBefore?
    cases t.entries.filter fun e => e.1 ≤ address with
    | nil => simp
    | cons first rest =>
      obtain ⟨last, hlast, -⟩ := exists_foldl_later rest first
      simp [hlast]
  rw [hnone, List.filter_eq_nil_iff]
  simp only [Prod.forall, mem_entries_iff, decide_eq_true_eq, UInt64.not_le]

theorem atOrBefore?_eq_some_iff :
    t.atOrBefore? address = some (start, a) ↔
      t.get? start = some a ∧ start ≤ address ∧
        ∀ other b, t.get? other = some b → other ≤ address → other ≤ start := by
  have hlatest : ∀ {start a}, t.atOrBefore? address = some (start, a) →
      t.get? start = some a ∧ start ≤ address ∧
        ∀ other b, t.get? other = some b → other ≤ address → other ≤ start := by
    intro start a h
    obtain ⟨hmem, hle⟩ := mem_of_atOrBefore? h
    refine ⟨(t.mem_entries_iff _).mp hmem, hle, fun other b hother hbefore => ?_⟩
    have hin : (other, b) ∈ t.entries.filter fun e => e.1 ≤ address :=
      List.mem_filter.mpr ⟨(t.mem_entries_iff _).mpr hother, decide_eq_true hbefore⟩
    unfold atOrBefore? at h
    generalize (t.entries.filter fun e => e.1 ≤ address) = entries at h hin
    cases entries with
    | nil => cases h
    | cons first rest =>
      obtain ⟨last, hlast, hall⟩ := exists_foldl_later rest first
      obtain rfl := Option.some.inj (hlast.symm.trans h)
      exact hall _ hin
  refine ⟨hlatest, fun ⟨hget, hle, hmax⟩ => ?_⟩
  cases hfound : t.atOrBefore? address with
  | none => exact absurd hle (UInt64.not_le.mpr (atOrBefore?_eq_none_iff.mp hfound start a hget))
  | some found =>
    -- Both are the latest start, and a start has one entry.
    obtain ⟨hget', hle', hmax'⟩ := hlatest hfound
    obtain rfl : found.1 = start := UInt64.le_antisymm (hmax _ _ hget' hle') (hmax' _ _ hget hle)
    obtain rfl := Option.some.inj (hget'.symm.trans hget)
    rfl

/-- The nearest start at or before an address leads to the region that has the address, if one
has. -/
theorem atOrBefore?_of_separate {size : α → Nat}
    (h : SeparateRegions fun start n => ∃ a, t.get? start = some a ∧ size a = n) :
    (t.atOrBefore? address = some (start, a) ∧ Covers start (size a) address) ↔
      t.get? start = some a ∧ Covers start (size a) address := by
  refine and_congr_left fun hcovers => ?_
  rw [atOrBefore?_eq_some_iff]
  refine ⟨And.left, fun hget => ⟨hget, UInt64.le_iff_toNat_le.mpr hcovers.1, ?_⟩⟩
  intro other b hother hbefore
  by_contra hafter
  -- A region that begins in between would have its first byte in common with this one.
  rw [UInt64.le_iff_toNat_le] at hbefore hafter
  have hpos := h.size_pos other _ ⟨b, hother, rfl⟩
  have hsame := h.start_unique start _ other _ other ⟨a, hget, rfl⟩ ⟨b, hother, rfl⟩
    ⟨by omega, by have := hcovers.2; omega⟩ ⟨Nat.le_refl _, by omega⟩
  exact hafter (hsame ▸ Nat.le_refl _)

/-- Whether one of two regions ends before the other one begins. -/
def Apart (size : α → Nat) (e f : UInt64 × α) : Prop :=
  e.1.toNat + size e.2 ≤ f.1.toNat ∨ f.1.toNat + size f.2 ≤ e.1.toNat

instance (size : α → Nat) : DecidableRel (Apart size) :=
  fun _ _ => inferInstanceAs (Decidable (_ ∨ _))

instance (size : α → Nat) : Std.Symm (Apart size) := ⟨fun _ _ => Or.symm⟩

theorem separateRegions {size : α → Nat} (hpos : ∀ e ∈ t.entries, 0 < size e.2)
    (hapart : t.entries.Pairwise (Apart size)) :
    SeparateRegions fun start n => ∃ a, t.get? start = some a ∧ size a = n where
  size_pos := by
    rintro start _ ⟨a, ha, rfl⟩
    exact hpos (start, a) ((t.mem_entries_iff _).mpr ha)
  start_unique := by
    rintro start _ start' _ address ⟨a, ha, rfl⟩ ⟨b, hb, rfl⟩ hcovers hcovers'
    by_contra hne
    have hends : Apart size (start, a) (start', b) :=
      hapart.forall ((t.mem_entries_iff _).mpr ha) ((t.mem_entries_iff _).mpr hb)
        fun heq => hne (congrArg Prod.fst heq)
    simp only [Apart] at hends
    unfold Covers at hcovers hcovers'
    omega

end Table

/-- The last member of a list with some property. -/
def Last {α : Type} (p : α → Prop) (l : List α) (a : α) : Prop :=
  p a ∧ ∃ earlier later, l = earlier ++ a :: later ∧ ∀ x ∈ later, ¬ p x

namespace Last

variable {α : Type} {p : α → Prop} {l : List α} {a b : α}

theorem not_nil : ¬ Last p [] a := by
  rintro ⟨-, earlier, later, hl, -⟩
  simp at hl

theorem concat_of_pos (h : p b) : Last p (l ++ [b]) a ↔ b = a := by
  constructor
  · rintro ⟨-, earlier, later, hl, hlater⟩
    obtain rfl | ⟨rest, c, rfl⟩ := later.eq_nil_or_concat
    · exact (List.append_singleton_inj.mp hl).2
    · rw [List.concat_eq_append, ← List.cons_append, ← List.append_assoc] at hl
      obtain rfl := (List.append_singleton_inj.mp hl).2
      exact absurd h (hlater b (by simp))
  · rintro rfl
    exact ⟨h, l, [], rfl, by simp⟩

theorem concat_of_neg (h : ¬ p b) : Last p (l ++ [b]) a ↔ Last p l a := by
  constructor
  · rintro ⟨ha, earlier, later, hl, hlater⟩
    obtain rfl | ⟨rest, c, rfl⟩ := later.eq_nil_or_concat
    · obtain rfl := (List.append_singleton_inj.mp hl).2
      exact absurd ha h
    · rw [List.concat_eq_append, ← List.cons_append, ← List.append_assoc] at hl
      exact ⟨ha, earlier, rest, (List.append_singleton_inj.mp hl).1,
        fun x hx => hlater x (by simp [hx])⟩
  · rintro ⟨ha, earlier, later, rfl, hlater⟩
    refine ⟨ha, earlier, later ++ [b], by simp, ?_⟩
    simpa [or_imp, forall_and] using ⟨hlater, h⟩

theorem concat_iff : Last p (l ++ [b]) a ↔ (p b ∧ b = a) ∨ (¬ p b ∧ Last p l a) := by
  by_cases h : p b
  · simp [concat_of_pos h, h]
  · simp [concat_of_neg h, h]

end Last

namespace ProcessMap

section Operations

variable (m : ProcessMap) (p q : ProcessId) (a : UInt64)

theorem get?_modules_addModule (size : UInt64) (path : Option String) (b : UInt64) :
    ((m.addModule q a size path).layout p).modules.get? b =
      if p = q ∧ b = a then some ⟨size, path⟩ else (m.layout p).modules.get? b := by
  rw [addModule, layout_update]
  by_cases hp : p = q
  · rw [if_pos hp, Table.get?_set]
    simp [hp]
  · simp [hp]

@[simp] theorem memory_addModule (size : UInt64) (path : Option String) :
    ((m.addModule q a size path).layout p).memory = (m.layout p).memory := by
  rw [addModule, layout_update]
  by_cases hp : p = q
  · simp [hp]
  · simp [hp]

theorem removeModule_fst : (m.removeModule q a).1 = ((m.layout q).modules.get? a).isSome := by
  unfold removeModule hasModule Table.contains
  split <;> simp_all

theorem get?_modules_removeModule (b : UInt64) :
    ((m.removeModule q a).2.layout p).modules.get? b =
      if p = q ∧ b = a then none else (m.layout p).modules.get? b := by
  unfold removeModule
  split
  · rw [layout_update]
    by_cases hp : p = q
    · rw [if_pos hp, Table.get?_erase]
      simp [hp]
    · simp [hp]
  · next hnone =>
    have hget : (m.layout q).modules.get? a = none := by
      simpa [hasModule, Table.contains] using hnone
    split
    · next h => rw [h.1, h.2, hget]
    · rfl

@[simp] theorem memory_removeModule :
    ((m.removeModule q a).2.layout p).memory = (m.layout p).memory := by
  unfold removeModule
  split
  · rw [layout_update]
    by_cases hp : p = q
    · simp [hp]
    · simp [hp]
  · rfl

@[simp] theorem modules_addMemory (bytes : Bytes) :
    ((m.addMemory q a bytes).layout p).modules = (m.layout p).modules := by
  rw [addMemory, layout_update]
  by_cases hp : p = q
  · simp [hp]
  · simp [hp]

theorem get?_memory_addMemory (bytes : Bytes) (b : UInt64) :
    ((m.addMemory q a bytes).layout p).memory.get? b =
      if p = q ∧ b = a then some bytes else (m.layout p).memory.get? b := by
  rw [addMemory, layout_update]
  by_cases hp : p = q
  · rw [if_pos hp, Table.get?_set]
    simp [hp]
  · simp [hp]

end Operations

/-- Where a process has modules, and how large they are. -/
def ModuleAt (m : ProcessMap) (p : ProcessId) (base : UInt64) (size : Nat) : Prop :=
  ∃ loaded, (m.layout p).modules.get? base = some loaded ∧ loaded.size.toNat = size

/-- Where a process has readable memory, and how much. -/
def MemoryAt (m : ProcessMap) (p : ProcessId) (start : UInt64) (size : Nat) : Prop :=
  ∃ bytes, (m.layout p).memory.get? start = some bytes ∧ bytes.size = size

section Lookup

variable {m : ProcessMap} {p : ProcessId} {address base start : UInt64} {bytes : Bytes}

theorem moduleBase?_eq_some_iff_atOrBefore? :
    m.moduleBase? p address = some base ↔
      ∃ loaded, (m.layout p).modules.atOrBefore? address = some (base, loaded) ∧
        address - base < loaded.size := by
  simp only [moduleBase?, Option.bind_eq_bind, Option.bind_eq_some_iff, Prod.exists,
    Option.ite_none_right_eq_some, Option.some.injEq]
  constructor
  · rintro ⟨b, loaded, hat, hlt, rfl⟩
    exact ⟨loaded, hat, hlt⟩
  · rintro ⟨loaded, hat, hlt⟩
    exact ⟨base, loaded, hat, hlt, rfl⟩

theorem moduleBase?_eq_some_iff (h : SeparateRegions (m.ModuleAt p)) :
    m.moduleBase? p address = some base ↔
      ∃ loaded, (m.layout p).modules.get? base = some loaded ∧ base ≤ address ∧
        address - base < loaded.size := by
  have hcovers : ∀ loaded : LoadedModule, Covers base loaded.size.toNat address ↔
      base ≤ address ∧ address - base < loaded.size := by
    intro loaded
    rw [covers_iff_sub_lt, UInt64.lt_iff_toNat_lt]
  have hfound : ∀ loaded, ((m.layout p).modules.atOrBefore? address = some (base, loaded) ∧
      Covers base loaded.size.toNat address) ↔ _ := fun loaded => Table.atOrBefore?_of_separate h
  simp only [hcovers] at hfound
  rw [moduleBase?_eq_some_iff_atOrBefore?]
  constructor
  · rintro ⟨loaded, hat, hlt⟩
    exact ⟨loaded, (hfound loaded).mp ⟨hat, (Table.mem_of_atOrBefore? hat).2, hlt⟩⟩
  · rintro ⟨loaded, hget⟩
    obtain ⟨hat, -, hlt⟩ := (hfound loaded).mpr hget
    exact ⟨loaded, hat, hlt⟩

/-- From an address on, what is left of the region that has it can be read. -/
theorem readMemory?_of_covers (h : SeparateRegions (m.MemoryAt p))
    (hmemory : (m.layout p).memory.get? start = some bytes)
    (hcovers : Covers start bytes.size address) (count : Nat) :
    m.readMemory? p address count =
      some (bytes.extract (address.toNat - start.toNat) (address.toNat - start.toNat + count)) := by
  have hat := ((Table.atOrBefore?_of_separate h).mpr ⟨hmemory, hcovers⟩).1
  obtain ⟨hle, hlt⟩ := covers_iff_sub_lt.mp hcovers
  simp only [readMemory?, hat, Option.bind_eq_bind, Option.bind_some, if_pos hlt]
  rw [UInt64.toNat_sub_of_le _ _ hle]

/-- Memory is unreadable where no region is. -/
theorem readMemory?_of_not_covers
    (h : ∀ start bytes, (m.layout p).memory.get? start = some bytes →
      ¬ Covers start bytes.size address) (count : Nat) :
    m.readMemory? p address count = none := by
  unfold readMemory?
  cases hat : (m.layout p).memory.atOrBefore? address with
  | none => rfl
  | some found =>
    obtain ⟨hget, hle, -⟩ := Table.atOrBefore?_eq_some_iff.mp hat
    have hnot := h _ _ hget
    rw [covers_iff_sub_lt, not_and] at hnot
    simp only [Option.bind_eq_bind, Option.bind_some, if_neg (hnot hle)]

theorem modulePath?_eq_some_iff {path : String} :
    m.modulePath? p base = some path ↔
      ∃ size, (m.layout p).modules.get? base = some ⟨size, some path⟩ := by
  simp only [modulePath?, Option.bind_eq_bind, Option.bind_eq_some_iff]
  constructor
  · rintro ⟨⟨size, _⟩, hget, rfl⟩
    exact ⟨size, hget⟩
  · rintro ⟨size, hget⟩
    exact ⟨_, hget, rfl⟩

theorem readInto?_eq_none_iff (h : SeparateRegions (m.MemoryAt p)) (buffer : Bytes) :
    m.readInto? p address buffer = none ↔
      ¬ ∃ start bytes, (m.layout p).memory.get? start = some bytes ∧
        Covers start bytes.size address := by
  rw [readInto?, Option.map_eq_none_iff]
  constructor
  · rintro hnone ⟨start, bytes, hget, hcovers⟩
    rw [readMemory?_of_covers h hget hcovers] at hnone
    cases hnone
  · intro hnot
    exact readMemory?_of_not_covers (fun start bytes hget hcovers =>
      hnot ⟨start, bytes, hget, hcovers⟩) _

/-- What is read goes over the beginning of the buffer. -/
theorem readInto?_of_covers (h : SeparateRegions (m.MemoryAt p))
    (hmemory : (m.layout p).memory.get? start = some bytes)
    (hcovers : Covers start bytes.size address) (buffer : Bytes) :
    ∃ count written, m.readInto? p address buffer = some (count, written) ∧
      count = min buffer.size (start.toNat + bytes.size - address.toNat) ∧
      written.size = buffer.size ∧
      ∀ i : Nat, written[i]? =
        if i < count then bytes[address.toNat - start.toNat + i]? else buffer[i]? := by
  refine ⟨_, _, by rw [readInto?, readMemory?_of_covers h hmemory hcovers, Option.map_some], ?_,
    Bytes.size_overwrite .., fun i => ?_⟩
  · obtain ⟨hle, hlt⟩ := hcovers
    rw [ByteArray.size_extract]
    omega
  · obtain ⟨hle, hlt⟩ := hcovers
    rw [Bytes.getElem?_overwrite, ByteArray.size_extract, Bytes.getElem?_extract]
    grind

end Lookup

/-- A change of a process map. -/
inductive Change where
  | addModule (process : ProcessId) (base size : UInt64) (path : Option String)
  | removeModule (process : ProcessId) (base : UInt64)
  | addMemory (process : ProcessId) (address : UInt64) (bytes : Bytes)

namespace Change

def apply (m : ProcessMap) : Change → ProcessMap
  | addModule p base size path => m.addModule p base size path
  | removeModule p base => (m.removeModule p base).2
  | addMemory p address bytes => m.addMemory p address bytes

/-- Whether a change loads or unloads a module at a base. -/
def IsOfModule (p : ProcessId) (base : UInt64) : Change → Prop
  | addModule q a _ _ | removeModule q a => q = p ∧ a = base
  | addMemory .. => False

/-- Whether a change makes memory readable from an address on. -/
def IsOfMemory (p : ProcessId) (start : UInt64) : Change → Prop
  | addMemory q a _ => q = p ∧ a = start
  | addModule .. | removeModule .. => False

end Change

/-- The map that changes lead to, from one of which nothing is known. -/
def ofChanges (changes : List Change) : ProcessMap := changes.foldl Change.apply {}

/-- A module was loaded at a base, and that is the last that happened there. -/
def HasModule (changes : List Change) (p : ProcessId) (base : UInt64) (loaded : LoadedModule) :
    Prop :=
  Last (Change.IsOfModule p base) changes (.addModule p base loaded.size loaded.path)

/-- Memory was made readable from an address on, and that is the last that happened there. -/
def HasMemory (changes : List Change) (p : ProcessId) (start : UInt64) (bytes : Bytes) : Prop :=
  Last (Change.IsOfMemory p start) changes (.addMemory p start bytes)

section Step

variable (m : ProcessMap) (c : Change) (p : ProcessId)

theorem ofChanges_concat (changes : List Change) :
    ofChanges (changes ++ [c]) = c.apply (ofChanges changes) := by
  rw [ofChanges, List.foldl_append]
  rfl

/-- The module that there is at a base after a change. -/
theorem get?_modules_apply (base : UInt64) (loaded : LoadedModule) :
    ((c.apply m).layout p).modules.get? base = some loaded ↔
      (c.IsOfModule p base ∧ c = .addModule p base loaded.size loaded.path) ∨
        (¬ c.IsOfModule p base ∧ (m.layout p).modules.get? base = some loaded) := by
  obtain ⟨size, path⟩ := loaded
  cases c with
  | addModule q a =>
    rw [Change.apply, get?_modules_addModule]
    by_cases h : p = q ∧ base = a
    · obtain ⟨rfl, rfl⟩ := h
      simp [Change.IsOfModule]
    · have hother : ¬ (q = p ∧ a = base) := by simpa only [eq_comm] using h
      simp only [if_neg h, Change.IsOfModule, hother, false_and, not_false_eq_true, true_and,
        false_or]
  | removeModule q a =>
    rw [Change.apply, get?_modules_removeModule]
    by_cases h : p = q ∧ base = a
    · simp [Change.IsOfModule, h]
    · have hother : ¬ (q = p ∧ a = base) := by simpa only [eq_comm] using h
      simp only [if_neg h, Change.IsOfModule, hother, false_and, not_false_eq_true, true_and,
        false_or]
  | addMemory q a => simp [Change.apply, Change.IsOfModule]

/-- The memory that is readable from an address on after a change. -/
theorem get?_memory_apply (start : UInt64) (bytes : Bytes) :
    ((c.apply m).layout p).memory.get? start = some bytes ↔
      (c.IsOfMemory p start ∧ c = .addMemory p start bytes) ∨
        (¬ c.IsOfMemory p start ∧ (m.layout p).memory.get? start = some bytes) := by
  cases c with
  | addModule q a => simp [Change.apply, Change.IsOfMemory]
  | removeModule q a => simp [Change.apply, Change.IsOfMemory]
  | addMemory q a =>
    rw [Change.apply, get?_memory_addMemory]
    by_cases h : p = q ∧ start = a
    · obtain ⟨rfl, rfl⟩ := h
      simp [Change.IsOfMemory]
    · have hother : ¬ (q = p ∧ a = start) := by simpa only [eq_comm] using h
      simp only [if_neg h, Change.IsOfMemory, hother, false_and, not_false_eq_true, true_and,
        false_or]

end Step

section Run

variable (changes : List Change) (p : ProcessId)

theorem get?_modules_ofChanges (base : UInt64) (loaded : LoadedModule) :
    ((ofChanges changes).layout p).modules.get? base = some loaded ↔
      HasModule changes p base loaded := by
  induction changes using List.reverseRecOn with
  | nil =>
    refine iff_of_false ?_ Last.not_nil
    rintro ⟨⟩
  | append_singleton changes c ih =>
    rw [ofChanges_concat, get?_modules_apply, ih]
    exact Last.concat_iff.symm

theorem get?_memory_ofChanges (start : UInt64) (bytes : Bytes) :
    ((ofChanges changes).layout p).memory.get? start = some bytes ↔
      HasMemory changes p start bytes := by
  induction changes using List.reverseRecOn with
  | nil =>
    refine iff_of_false ?_ Last.not_nil
    rintro ⟨⟩
  | append_singleton changes c ih =>
    rw [ofChanges_concat, get?_memory_apply, ih]
    exact Last.concat_iff.symm

end Run

/-- What a process map that came about through changes says of a process. -/
structure AnswersByRegion (changes : List Change) (p : ProcessId) : Prop where
  /-- An address lies in a module exactly if it is one of the addresses of the module. -/
  moduleBase?_iff : ∀ address base, (ofChanges changes).moduleBase? p address = some base ↔
    ∃ loaded, HasModule changes p base loaded ∧ base ≤ address ∧ address - base < loaded.size
  modulePath?_iff : ∀ base path, (ofChanges changes).modulePath? p base = some path ↔
    ∃ size, HasModule changes p base ⟨size, some path⟩
  removeModule_iff : ∀ base, ((ofChanges changes).removeModule p base).1 = true ↔
    ∃ loaded, HasModule changes p base loaded
  readInto?_eq_none_iff : ∀ address buffer,
    (ofChanges changes).readInto? p address buffer = none ↔
      ¬ ∃ start bytes, HasMemory changes p start bytes ∧ Covers start bytes.size address
  /-- As much is read as fits and as the region has left, and the rest of the buffer stays. -/
  readInto?_eq_some : ∀ address buffer start bytes, HasMemory changes p start bytes →
    Covers start bytes.size address →
    ∃ count written, (ofChanges changes).readInto? p address buffer = some (count, written) ∧
      count = min buffer.size (start.toNat + bytes.size - address.toNat) ∧
      written.size = buffer.size ∧
      ∀ i : Nat, written[i]? =
        if i < count then bytes[address.toNat - start.toNat + i]? else buffer[i]?

/-- Whatever the changes, as long as the modules that are then loaded have addresses and share none,
and so does the memory, a process map finds the one region that has an address. -/
theorem ofChanges_answersByRegion (changes : List Change) (p : ProcessId)
    (hmodules : SeparateRegions fun base size =>
      ∃ loaded, HasModule changes p base loaded ∧ loaded.size.toNat = size)
    (hmemory : SeparateRegions fun start size =>
      ∃ bytes, HasMemory changes p start bytes ∧ bytes.size = size) :
    AnswersByRegion changes p := by
  simp only [← get?_modules_ofChanges] at hmodules
  simp only [← get?_memory_ofChanges] at hmemory
  constructor
  · intro address base
    simp only [← get?_modules_ofChanges]
    exact moduleBase?_eq_some_iff hmodules
  · intro base path
    simp only [← get?_modules_ofChanges]
    exact modulePath?_eq_some_iff
  · intro base
    simp only [← get?_modules_ofChanges, removeModule_fst, Option.isSome_iff_exists]
  · intro address buffer
    simp only [← get?_memory_ofChanges]
    exact readInto?_eq_none_iff hmemory buffer
  · intro address buffer start bytes hget hcovers
    rw [← get?_memory_ofChanges] at hget
    exact readInto?_of_covers hmemory hget hcovers buffer

/-- A module that was loaded again, two others right behind each other, one that was unloaded, and a
module and memory that end with the address space. -/
def upToTheEnd : List Change :=
  [.addModule ⟨1⟩ 0x10000 0x4000 (some "old.dll"), .addModule ⟨1⟩ 0x13000 0x1000 none,
    .addModule ⟨2⟩ 0x10000 0x8000 none, .addModule ⟨1⟩ 0x10000 0x3000 (some "new.dll"),
    .addModule ⟨1⟩ 0x11000 0x1000 none, .removeModule ⟨1⟩ 0x11000,
    .addModule ⟨1⟩ 0xFFFFFFFFFFFFF000 0x1000 (some "last.dll"),
    .addMemory ⟨1⟩ 0xFFFFFFFFFFFFFFFC ⟨#[1, 2, 3, 4]⟩, .addMemory ⟨1⟩ 0x1000 ⟨#[5]⟩]

theorem upToTheEnd_answersByRegion :
    (SeparateRegions (fun base size =>
        ∃ loaded, HasModule upToTheEnd ⟨1⟩ base loaded ∧ loaded.size.toNat = size) ∧
      SeparateRegions (fun start size =>
        ∃ bytes, HasMemory upToTheEnd ⟨1⟩ start bytes ∧ bytes.size = size)) ∧
      AnswersByRegion upToTheEnd ⟨1⟩ ∧
      (ofChanges upToTheEnd).moduleBase? ⟨1⟩ 0xFFFFFFFFFFFFFFFF = some 0xFFFFFFFFFFFFF000 ∧
      (ofChanges upToTheEnd).modulePath? ⟨1⟩ 0x10000 = some "new.dll" ∧
      (ofChanges upToTheEnd).readInto? ⟨1⟩ 0xFFFFFFFFFFFFFFFE ⟨#[9, 9, 9]⟩ =
        some (2, ⟨#[3, 4, 9]⟩) := by
  have hmodules : SeparateRegions fun base size =>
      ∃ loaded, HasModule upToTheEnd ⟨1⟩ base loaded ∧ loaded.size.toNat = size := by
    simp only [← get?_modules_ofChanges]
    exact Table.separateRegions (by decide) (by decide)
  have hmemory : SeparateRegions fun start size =>
      ∃ bytes, HasMemory upToTheEnd ⟨1⟩ start bytes ∧ bytes.size = size := by
    simp only [← get?_memory_ofChanges]
    exact Table.separateRegions (by decide) (by decide)
  exact ⟨⟨hmodules, hmemory⟩, ofChanges_answersByRegion upToTheEnd ⟨1⟩ hmodules hmemory,
    by decide +kernel, by decide +kernel, by decide +kernel⟩

end ProcessMap

end Postmortem
