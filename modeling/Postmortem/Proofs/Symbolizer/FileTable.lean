import Mathlib.Algebra.Order.BigOperators.Group.List
import Mathlib.Algebra.Order.Group.Nat
import Mathlib.Data.Finset.Card
import Postmortem.Proofs.Symbolizer.Offline

/-!
# The table of image files

Every image file that is asked about has a process of its own, in which nothing else is loaded. The
processes are numbered by the size of the table, so each new one gets a number that none has yet.
-/
namespace Postmortem

namespace Path

/-- How many files some paths name, when paths that mean the same name one file. -/
def fileCount (paths : List String) : Nat := (paths.map meaning).toFinset.card

/-- The first of some paths that has a meaning. -/
def spelling? (paths : List String) (m : Meaning) : Option String :=
  paths.find? fun path => meaning path = m

theorem fileCount_append_le (paths more : List String) :
    fileCount paths ≤ fileCount (paths ++ more) := by
  rw [fileCount, fileCount, List.map_append, List.toFinset_append]
  exact Finset.card_le_card Finset.subset_union_left

theorem fileCount_append_of_new (paths : List String) (path : String)
    (h : meaning path ∉ paths.map meaning) :
    fileCount (paths ++ [path]) = fileCount paths + 1 := by
  have hnew : meaning path ∉ (paths.map meaning).toFinset := by
    rwa [List.mem_toFinset]
  have hunion : ((paths ++ [path]).map meaning).toFinset =
      insert (meaning path) (paths.map meaning).toFinset := by
    rw [List.map_append, List.toFinset_append, Finset.union_comm]
    rfl
  rw [fileCount, hunion, Finset.card_insert_of_notMem hnew]
  rfl

/-- A file that was named before keeps its spelling. -/
theorem spelling?_append_of_some {paths : List String} {m : Meaning} {path : String}
    (h : spelling? paths m = some path) (more : List String) :
    spelling? (paths ++ more) m = some path := by
  rw [spelling?, List.find?_append]
  exact congrArg (Option.or · _) h

theorem spelling?_append_of_new {paths : List String} {path : String}
    (h : meaning path ∉ paths.map meaning) :
    spelling? (paths ++ [path]) (meaning path) = some path := by
  have hnone : spelling? paths (meaning path) = none := by
    rw [spelling?, List.find?_eq_none]
    intro other hother hsame
    exact h (List.mem_map.mpr ⟨other, hother, of_decide_eq_true hsame⟩)
  rw [spelling?, List.find?_append]
  rw [spelling?] at hnone
  rw [hnone, Option.none_or, List.find?_singleton, if_pos (decide_eq_true rfl)]

end Path

namespace Table

variable {κ α : Type} (t : Table κ α)

theorem total_le_size (weight : α → Nat) (h : ∀ e ∈ t.entries, weight e.2 ≤ 1) :
    t.total weight ≤ t.size := by
  have hsum : t.total weight ≤ t.total fun _ => 1 := List.sum_le_sum h
  rwa [t.total_one] at hsum

variable [DecidableEq κ]

theorem mem_keys_iff (key : κ) : key ∈ t.entries.map Prod.fst ↔ ∃ a, t.get? key = some a := by
  rw [List.mem_map]
  constructor
  · rintro ⟨e, he, rfl⟩
    exact ⟨e.2, t.get?_of_mem he⟩
  · rintro ⟨a, ha⟩
    exact ⟨(key, a), (t.mem_entries_iff (key, a)).mpr ha, rfl⟩

theorem size_eq_card : t.size = (t.entries.map Prod.fst).toFinset.card := by
  rw [List.toFinset_card_of_nodup t.nodup, List.length_map]
  rfl

/-- A new key gets its value, and no other value changes. -/
theorem get?_set_of_new {key : κ} (value : α) (h : t.get? key = none) {other : κ} {a : α} :
    (t.set key value).get? other = some a ↔
      (other = key ∧ a = value) ∨ t.get? other = some a := by
  rw [get?_set]
  split
  · next heq => simp [heq, h, eq_comm]
  · next hne => simp [hne]

/-- A table whose keys are all the same has at most one. -/
theorem size_le_one (key : κ) (h : ∀ other a, t.get? other = some a → other = key) :
    t.size ≤ 1 := by
  have hsub : (t.entries.map Prod.fst).toFinset ⊆ {key} := by
    intro other hother
    obtain ⟨a, ha⟩ := (t.mem_keys_iff other).mp (List.mem_toFinset.mp hother)
    exact Finset.mem_singleton.mpr (h other a ha)
  have hcard := Finset.card_le_card hsub
  rwa [← t.size_eq_card, Finset.card_singleton] at hcard

end Table

namespace ModuleImage

/-- What can be had of a module that is in no process, from its file. -/
def ofFile (files : Files) (limit : Nat) (path : String) : ModuleImage :=
  let image := (Image.openFile files path limit).toOption
  ⟨image, image.bind debugInfo?⟩

end ModuleImage

namespace OfflineImages

section Layout

variable {m : ProcessMap} {p : ProcessId} {path : String} (h : m.layout p = layoutOf path)

include h

/-- There is nothing beyond the image. -/
theorem moduleBase?_eq_none_of_layout {rva : UInt64} (hrva : imageSpan ≤ rva) :
    m.moduleBase? p rva = none := by
  have hfound : (layoutOf path).modules.atOrBefore? rva = some (0, ⟨imageSpan, some path⟩) := by
    simp [layoutOf, Table.atOrBefore?, Table.set, Table.erase, EmptyCollection.emptyCollection,
      Table.empty]
  rw [ProcessMap.moduleBase?, h, hfound]
  simpa using hrva

/-- The image comes from its file, since the process has no memory. -/
theorem build_of_layout (files : Files) (limit : Nat) :
    ModuleImage.build files m limit p 0 (some path) = .ofFile files limit path := by
  have hmemory : ∀ a count, m.readMemory? p a count = none := by
    intro a count
    rw [ProcessMap.readMemory?, h]
    rfl
  have hfind : ModuleImage.find? files m limit p 0 (some path) =
      (Image.openFile files path limit).toOption := by
    rw [ModuleImage.find?, Option.bind_some, ModuleImage.ofMemory, hmemory]
    cases (Image.openFile files path limit).toOption with
    | none => rfl
    | some image => rfl
  rw [ModuleImage.build, hfind]
  rfl

end Layout

/-- How image files have their processes when they were asked about under these paths, in this
order. -/
structure Tabulates (paths : List String) (o : OfflineImages) : Prop where
  /-- The files that were asked about have processes, and no others. -/
  known_iff : ∀ meaning, (∃ p, o.byPath.get? meaning = some p) ↔ meaning ∈ paths.map Path.meaning
  /-- No two files share a process. -/
  injective : ∀ first second p, o.byPath.get? first = some p → o.byPath.get? second = some p →
    first = second
  /-- The processes of files are attached, and no others. -/
  attached_iff : ∀ p, o.symbolizer.cache.isAttached p = true ↔
    ∃ meaning, o.byPath.get? meaning = some p
  /-- A process has its file, spelled as it was first asked about, and nothing else. -/
  layout_eq : ∀ meaning p, o.byPath.get? meaning = some p →
    ∃ path, Path.spelling? paths meaning = some path ∧ o.processes.layout p = layoutOf path
  /-- Nothing is loaded in other processes. -/
  unused : ∀ p, (∀ meaning, o.byPath.get? meaning ≠ some p) → o.processes.layout p = {}
  /-- The processes are numbered without a gap. -/
  number_lt : ∀ meaning p, o.byPath.get? meaning = some p → p.number.toNat < o.byPath.size

theorem tabulates_start (config : Config) : (start config).Tabulates [] where
  known_iff meaning := by
    constructor
    · rintro ⟨p, hp⟩
      cases hp
    · rintro ⟨⟩
  injective _ _ _ h := by cases h
  attached_iff p := by
    constructor
    · rintro ⟨⟩
    · rintro ⟨meaning, hp⟩
      cases hp
  layout_eq _ _ h := by cases h
  unused _ _ := rfl
  number_lt _ _ h := by cases h

namespace Tabulates

variable {paths : List String} {o : OfflineImages} (h : o.Tabulates paths)

include h

/-- There are as many processes as files. -/
theorem size_eq : o.byPath.size = Path.fileCount paths := by
  have hkeys : (o.byPath.entries.map Prod.fst).toFinset = (paths.map Path.meaning).toFinset := by
    ext meaning
    rw [List.mem_toFinset, List.mem_toFinset, o.byPath.mem_keys_iff]
    exact h.known_iff meaning
  rw [o.byPath.size_eq_card, hkeys]
  rfl

theorem not_mem_of_new {path : String} (hnew : o.byPath.get? (Path.meaning path) = none) :
    Path.meaning path ∉ paths.map Path.meaning := by
  intro hmem
  obtain ⟨p, hp⟩ := (h.known_iff _).mpr hmem
  rw [hnew] at hp
  cases hp

/-- When no more files were asked about than there are numbers, a new one still gets a number. -/
theorem size_lt_of_new {path : String} (hnew : o.byPath.get? (Path.meaning path) = none)
    (hcount : Path.fileCount (paths ++ [path]) ≤ UInt64.size) : o.byPath.size < UInt64.size := by
  rw [Path.fileCount_append_of_new paths path (h.not_mem_of_new hnew), ← h.size_eq] at hcount
  exact hcount

section New

variable (hsize : o.byPath.size < UInt64.size)

include hsize

theorem ne_next {meaning : Path.Meaning} {p : ProcessId} (hp : o.byPath.get? meaning = some p) :
    p ≠ o.next := by
  rw [ne_eq, o.eq_next_iff hsize]
  exact Nat.ne_of_lt (h.number_lt meaning p hp)

theorem layout_next (path : String) : (o.processesWith path).layout o.next = layoutOf path := by
  have hunused : o.processes.layout o.next = {} :=
    h.unused o.next fun meaning hp => h.ne_next hsize hp rfl
  rw [processesWith, ProcessMap.addModule, ProcessMap.layout_update, if_pos rfl, hunused]
  rfl

/-- A file that is asked about for the first time gets the next process. -/
theorem processFor_new {path : String} (hnew : o.byPath.get? (Path.meaning path) = none) :
    (o.processFor path).2.Tabulates (paths ++ [path]) := by
  have hset : ∀ {meaning p}, (o.byPath.set (Path.meaning path) o.next).get? meaning = some p ↔
      (meaning = Path.meaning path ∧ p = o.next) ∨ o.byPath.get? meaning = some p :=
    o.byPath.get?_set_of_new o.next hnew
  rw [o.processFor_of_new path hnew]
  refine
    { known_iff := fun meaning => ?known
      injective := fun first second p hfirst hsecond => ?injective
      attached_iff := fun p => ?attached
      layout_eq := fun meaning p hp => ?layout
      unused := fun p hp => ?unused
      number_lt := fun meaning p hp => ?number }
  case known =>
    simp only [hset, List.map_append, List.mem_append, ← h.known_iff meaning, List.map_singleton,
      List.mem_singleton, exists_or, exists_eq_right]
    exact or_comm
  case injective =>
    obtain ⟨rfl, rfl⟩ | hfirst := hset.mp hfirst
    · obtain ⟨rfl, -⟩ | hsecond := hset.mp hsecond
      · rfl
      · exact absurd rfl (h.ne_next hsize hsecond)
    · obtain ⟨-, rfl⟩ | hsecond := hset.mp hsecond
      · exact absurd rfl (h.ne_next hsize hfirst)
      · exact h.injective first second p hfirst hsecond
  case attached =>
    simp only [hset, exists_or, exists_and_right, exists_eq, true_and, LiveSymbolizer.attach,
      ModuleCache.isAttached_attach, h.attached_iff p]
  case layout =>
    obtain ⟨rfl, rfl⟩ | hold := hset.mp hp
    · exact ⟨path, Path.spelling?_append_of_new (h.not_mem_of_new hnew), h.layout_next hsize path⟩
    · obtain ⟨first, hfirst, hlayout⟩ := h.layout_eq meaning p hold
      refine ⟨first, Path.spelling?_append_of_some hfirst _, ?_⟩
      rw [o.layout_processesWith path p (h.ne_next hsize hold), hlayout]
  case unused =>
    have hne : p ≠ o.next := fun heq => hp _ (hset.mpr (.inl ⟨rfl, heq⟩))
    dsimp only
    rw [o.layout_processesWith path p hne]
    exact h.unused p fun meaning hold => hp meaning (hset.mpr (.inr hold))
  case number =>
    dsimp only
    rw [o.byPath.size_set_of_new _ o.next hnew]
    obtain ⟨-, rfl⟩ | hold := hset.mp hp
    · rw [(o.eq_next_iff hsize o.next).mp rfl]
      exact Nat.lt_succ_self _
    · exact Nat.lt_succ_of_lt (h.number_lt meaning p hold)

end New

/-- A file that was asked about before has its process, whatever the spelling. -/
theorem append_known {path : String} {p : ProcessId}
    (hp : o.byPath.get? (Path.meaning path) = some p) : o.Tabulates (paths ++ [path]) where
  known_iff meaning := by
    rw [List.map_append, List.mem_append, ← h.known_iff meaning, List.map_singleton,
      List.mem_singleton]
    constructor
    · exact .inl
    · rintro (hold | rfl)
      · exact hold
      · exact ⟨p, hp⟩
  injective := h.injective
  attached_iff := h.attached_iff
  layout_eq meaning q hq := by
    obtain ⟨first, hfirst, hlayout⟩ := h.layout_eq meaning q hq
    exact ⟨first, Path.spelling?_append_of_some hfirst _, hlayout⟩
  unused := h.unused
  number_lt := h.number_lt

theorem processFor (path : String) (hcount : Path.fileCount (paths ++ [path]) ≤ UInt64.size) :
    (o.processFor path).2.Tabulates (paths ++ [path]) := by
  cases hp : o.byPath.get? (Path.meaning path) with
  | some p =>
    rw [OfflineImages.processFor, hp]
    exact h.append_known hp
  | none => exact h.processFor_new (h.size_lt_of_new hp hcount) hp

/-- A symbolizer with the same attached processes has the files as well. -/
theorem with_symbolizer {symbolizer : LiveSymbolizer}
    (hattached : ∀ p, symbolizer.cache.isAttached p = o.symbolizer.cache.isAttached p) :
    ({ o with symbolizer } : OfflineImages).Tabulates paths := by
  refine ⟨h.known_iff, h.injective, ?_, h.layout_eq, h.unused, h.number_lt⟩
  intro p
  rw [hattached p]
  exact h.attached_iff p

end Tabulates

end OfflineImages

end Postmortem
