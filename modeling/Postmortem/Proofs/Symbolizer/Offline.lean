import Postmortem.Proofs.Cache.Count
import Postmortem.Proofs.Process.Layout
import Postmortem.Proofs.Session.Transparency

/-!
# Image files and their processes

Each image file that was asked about is alone in a process of its own, at address zero. The
processes are numbered in the order in which their files were first asked about, so no two files
share one unless their paths mean the same. As long as the files stay as they are, what is kept of
an image is what is in its file.
-/
namespace Postmortem

/-- What is kept stays current when the world changes where nothing is kept. -/
theorem LiveSymbolizer.IsCurrent.of_layout {w v : World} {s : LiveSymbolizer} (h : s.IsCurrent w)
    (hfiles : v.files = w.files)
    (hlayout : ∀ p, s.cache.isAttached p = true → v.processes.layout p = w.processes.layout p) :
    s.IsCurrent v := by
  intro p b r hr
  have hp := hlayout p (s.cache.isAttached_of_record? p b hr)
  have hcurrent := h p b r hr
  have hpath := ProcessMap.modulePath?_congr hp b
  refine ⟨hcurrent.base_eq, hcurrent.path_eq.trans hpath.symm, ?_⟩
  intro m hm
  rw [hcurrent.contents_eq m hm, hfiles, hpath, ModuleImage.build_congr hp]

theorem LiveSymbolizer.isCurrent_of_empty {s : LiveSymbolizer} (h : s.cache = {}) (w : World) :
    s.IsCurrent w := by
  intro p b r hr
  rw [h] at hr
  cases hr

theorem Table.size_set_of_new {κ α : Type} [DecidableEq κ] (t : Table κ α) (key : κ) (a : α)
    (h : t.get? key = none) : (t.set key a).size = t.size + 1 := by
  have htotal := t.total_set key a fun _ => 1
  rw [h, total_one, total_one] at htotal
  exact htotal

namespace OfflineImages

/-- A process with nothing but an image file. -/
def layoutOf (path : String) : ProcessLayout where
  modules := Table.set ∅ 0 ⟨imageSpan, some path⟩

section Layout

variable {m : ProcessMap} {p : ProcessId} {path : String} (h : m.layout p = layoutOf path)

include h

theorem moduleBase?_of_layout {rva : UInt64} (hrva : rva < imageSpan) :
    m.moduleBase? p rva = some 0 := by
  have hfound : (layoutOf path).modules.atOrBefore? rva = some (0, ⟨imageSpan, some path⟩) := by
    simp [layoutOf, Table.atOrBefore?, Table.set, Table.erase, EmptyCollection.emptyCollection,
      Table.empty]
  rw [ProcessMap.moduleBase?, h, hfound]
  simp [hrva]

theorem modulePath?_of_layout : m.modulePath? p 0 = some path := by
  rw [ProcessMap.modulePath?, h, layoutOf]
  simp

end Layout

/-- A symbolizer for the same images that keeps nothing. -/
def uncached (config : Config) (o : OfflineImages) : Uncached where
  config
  native := none
  chain := .standard none
  attached p := p.number.toNat < o.byPath.size

/-- How image files have their processes, when only some paths were asked about and the files did
not change. -/
structure Settled (files : Files) (config : Config) (asked : String → Prop) (o : OfflineImages) :
    Prop where
  symbolizer : (o.uncached config).Matches ⟨files, o.processes⟩ o.symbolizer
  process : ∀ meaning p, o.byPath.get? meaning = some p → p.number.toNat < o.byPath.size ∧
    ∃ path, asked path ∧ Path.meaning path = meaning ∧ o.processes.layout p = layoutOf path
  unused : ∀ p, o.byPath.size ≤ p.number.toNat → o.processes.layout p = {}

variable {files : Files} {config : Config} {asked : String → Prop} {o : OfflineImages}

theorem settled_start (files : Files) (config : Config) (asked : String → Prop) :
    (start config).Settled files config asked where
  symbolizer := ⟨rfl, rfl, rfl, fun _ => rfl, LiveSymbolizer.isCurrent_of_empty rfl _⟩
  process meaning p hp := by cases hp
  unused p _ := rfl

section Next

variable (o)

/-- The process of the next image file. -/
def next : ProcessId := ⟨UInt64.ofNat o.byPath.size⟩

theorem eq_next_iff (hsize : o.byPath.size < UInt64.size) (p : ProcessId) :
    p = o.next ↔ p.number.toNat = o.byPath.size := by
  have hnext : o.next.number.toNat = o.byPath.size := UInt64.toNat_ofNat_of_lt hsize
  constructor
  · rintro rfl
    exact hnext
  · intro hp
    have hnumber : p.number = o.next.number := UInt64.toNat_inj.mp (hp.trans hnext.symm)
    exact congrArg ProcessId.mk hnumber

variable (path : String)

/-- The processes with one more, which has the image file. -/
def processesWith : ProcessMap := o.processes.addModule o.next 0 imageSpan (some path)

theorem processFor_of_new (h : o.byPath.get? (Path.meaning path) = none) :
    o.processFor path =
      (o.next,
       { symbolizer := o.symbolizer.attach o.next
         processes := o.processesWith path
         byPath := o.byPath.set (Path.meaning path) o.next }) := by
  rw [processFor, h]
  rfl

theorem layout_processesWith (p : ProcessId) (hp : p ≠ o.next) :
    (o.processesWith path).layout p = o.processes.layout p :=
  o.processes.layout_update_other hp _

end Next

namespace Settled

variable (h : o.Settled files config asked) {path : String}

include h

theorem isAttached_iff (p : ProcessId) :
    o.symbolizer.cache.isAttached p = true ↔ p.number.toNat < o.byPath.size := by
  rw [h.symbolizer.attached_eq p]
  exact decide_eq_true_iff

section New

variable (hsize : o.byPath.size < UInt64.size)

include hsize

theorem layout_next (path : String) : (o.processesWith path).layout o.next = layoutOf path := by
  have hnumber := (o.eq_next_iff hsize o.next).mp rfl
  rw [processesWith, ProcessMap.addModule, ProcessMap.layout_update, if_pos rfl,
    h.unused o.next (Nat.le_of_eq hnumber.symm)]
  rfl

theorem attach_next (hnew : o.byPath.get? (Path.meaning path) = none) :
    (uncached config (o.processFor path).2).Matches ⟨files, o.processesWith path⟩
      (o.symbolizer.attach o.next) where
  config_eq := h.symbolizer.config_eq
  native_eq := h.symbolizer.native_eq
  chain_eq := h.symbolizer.chain_eq
  attached_eq p := by
    rw [Bool.eq_iff_iff, LiveSymbolizer.attach, ModuleCache.isAttached_attach, h.isAttached_iff,
      o.eq_next_iff hsize, o.processFor_of_new path hnew, uncached, decide_eq_true_iff,
      o.byPath.size_set_of_new _ o.next hnew]
    omega
  current := by
    refine LiveSymbolizer.IsCurrent.attach ?_ o.next
    refine h.symbolizer.current.of_layout rfl ?_
    intro p hp
    refine o.layout_processesWith path p ?_
    rw [ne_eq, o.eq_next_iff hsize]
    exact Nat.ne_of_lt ((h.isAttached_iff p).mp hp)

/-- A path that is asked about for the first time gets the next process. -/
theorem processFor (hpath : asked path) : (o.processFor path).2.Settled files config asked := by
  cases hnew : o.byPath.get? (Path.meaning path) with
  | some p =>
    rw [OfflineImages.processFor, hnew]
    exact h
  | none =>
    have hmatches := h.attach_next hsize hnew
    have hcount := o.byPath.size_set_of_new _ o.next hnew
    rw [o.processFor_of_new path hnew] at hmatches ⊢
    refine ⟨hmatches, ?_, ?_⟩
    · intro meaning p hp
      rw [Table.get?_set] at hp
      dsimp only
      rw [hcount]
      split at hp
      · next hmeaning =>
        obtain rfl := Option.some.inj hp
        have hnumber := (o.eq_next_iff hsize o.next).mp rfl
        exact ⟨by omega, path, hpath, hmeaning.symm, h.layout_next hsize path⟩
      · obtain ⟨hlt, first, hfirst, hmeaning, hlayout⟩ := h.process meaning p hp
        have hne : p ≠ o.next := by
          rw [ne_eq, o.eq_next_iff hsize]
          exact Nat.ne_of_lt hlt
        refine ⟨by omega, first, hfirst, hmeaning, ?_⟩
        rw [o.layout_processesWith path p hne, hlayout]
    · intro p hp
      dsimp only at hp ⊢
      rw [hcount] at hp
      have hne : p ≠ o.next := by
        rw [ne_eq, o.eq_next_iff hsize]
        omega
      rw [o.layout_processesWith path p hne]
      exact h.unused p (by omega)

theorem resolve (hpath : asked path) (rva : UInt64) :
    (o.resolve files path rva).2.Settled files config asked := by
  have hsettled := h.processFor hsize hpath
  have hkept := (Uncached.keptByLookups_matches ⟨files, (o.processFor path).2.processes⟩
    (uncached config (o.processFor path).2)).ask .symbol _ (o.processFor path).1 rva
    hsettled.symbolizer
  exact ⟨hkept, hsettled.process, hsettled.unused⟩

/-- An image file answers as when nothing is kept. -/
theorem resolve_fst (hpath : asked path) (rva : UInt64) :
    (o.resolve files path rva).1 =
      (uncached config (o.processFor path).2).answer .symbol
        ⟨files, (o.processFor path).2.processes⟩ (o.processFor path).1 rva :=
  (h.processFor hsize hpath).symbolizer.answer_eq .symbol (o.processFor path).1 rva

end New

theorem setDemangle (demangle : Bool) :
    ({ o with symbolizer := o.symbolizer.setDemangle demangle } : OfflineImages).Settled files
      { config with demangle } asked where
  symbolizer := by
    refine ⟨?_, h.symbolizer.native_eq, h.symbolizer.chain_eq, h.symbolizer.attached_eq,
      h.symbolizer.current⟩
    have hconfig := h.symbolizer.config_eq
    change { o.symbolizer.config with demangle } = { config with demangle }
    rw [hconfig]
    rfl
  process := h.process
  unused := h.unused

end Settled

theorem size_processFor_le (o : OfflineImages) (path : String) :
    (o.processFor path).2.byPath.size ≤ o.byPath.size + 1 := by
  cases hnew : o.byPath.get? (Path.meaning path) with
  | some p =>
    rw [processFor, hnew]
    exact Nat.le_succ _
  | none =>
    rw [o.processFor_of_new path hnew]
    exact Nat.le_of_eq (o.byPath.size_set_of_new _ o.next hnew)

theorem get?_processFor (o : OfflineImages) (path : String) :
    (o.processFor path).2.byPath.get? (Path.meaning path) = some (o.processFor path).1 := by
  cases hnew : o.byPath.get? (Path.meaning path) with
  | some p =>
    rw [processFor, hnew]
    exact hnew
  | none =>
    rw [o.processFor_of_new path hnew, Table.get?_set, if_pos rfl]

end OfflineImages

namespace Symbolizer

/-- The image files that a symbolizer was asked about, none at first. -/
def images (s : Symbolizer) : OfflineImages := s.offline.getD (.start s.live.config)

/-- How a symbolizer is when it was told as much as one that keeps nothing, and asked about at most
`n` image files. -/
structure Settled (w : World) (u : Uncached) (asked : String → Prop) (n : Nat) (s : Symbolizer) :
    Prop where
  live : u.Matches w s.live
  images : s.images.Settled w.files u.config asked
  size_le : s.images.byPath.size ≤ n

variable {w : World} {u : Uncached} {asked : String → Prop} {n : Nat} {s : Symbolizer}

theorem settled_create (w : World) (config : Config) (native : Option NativeSymbolizer)
    (chain : Option SourceChain) (asked : String → Prop) :
    (create config native chain).Settled w
      { config, native, chain := chain.getD (.standard native) } asked 0 where
  live := ⟨rfl, rfl, rfl, fun _ => rfl, LiveSymbolizer.isCurrent_of_empty rfl _⟩
  images := OfflineImages.settled_start w.files config asked
  size_le := Nat.le_refl 0

namespace Settled

variable (h : s.Settled w u asked n)

include h

/-- What leaves the image files alone, and the settings. -/
theorem of_live {live : LiveSymbolizer} {u' : Uncached} (hlive : u'.Matches w live)
    (hconfig : u'.config = u.config) :
    ({ s with live } : Symbolizer).Settled w u' asked (n + 1) := by
  have himages : ({ s with live } : Symbolizer).images = s.images := by
    rw [Symbolizer.images, Symbolizer.images, hlive.config_eq, hconfig, h.live.config_eq]
  refine ⟨hlive, ?_, ?_⟩
  · rw [himages, hconfig]
    exact h.images
  · rw [himages]
    exact Nat.le_succ_of_le h.size_le

theorem perform (hn : n < UInt64.size) (operation : Operation)
    (hasked : ∀ path rva, operation = .resolveInFile path rva → asked path) :
    (s.perform w operation).Settled w (u.perform operation) asked (n + 1) := by
  have hlive := h.live.perform operation
  cases operation with
  | attach | detach | moduleLoaded | moduleUnloaded | lookupModule | ask | addSource | report =>
    exact h.of_live hlive rfl
  | resolveInFile path rva =>
    have hsize : s.images.byPath.size < UInt64.size := Nat.lt_of_le_of_lt h.size_le hn
    refine ⟨hlive, h.images.resolve hsize (hasked path rva rfl) rva, ?_⟩
    exact Nat.le_trans (s.images.size_processFor_le path) (Nat.succ_le_succ h.size_le)
  | setDemangle demangle =>
    have himages : (s.perform w (.setDemangle demangle)).images =
        { s.images with symbolizer := s.images.symbolizer.setDemangle demangle } := by
      rw [Symbolizer.images, Symbolizer.images, Symbolizer.perform, Symbolizer.setDemangle]
      cases s.offline with
      | none => rfl
      | some o => rfl
    refine ⟨hlive, ?_, ?_⟩
    · rw [himages]
      exact h.images.setDemangle demangle
    · rw [himages]
      exact Nat.le_succ_of_le h.size_le

theorem performAll (operations : List Operation) (hn : n + operations.length < UInt64.size)
    (hasked : ∀ path rva, .resolveInFile path rva ∈ operations → asked path) :
    (s.performAll w operations).Settled w (u.performAll operations) asked
      (n + operations.length) := by
  induction operations generalizing s u n with
  | nil => exact h
  | cons operation rest ih =>
    rw [List.length_cons] at hn ⊢
    have hstep := h.perform (by omega) operation fun path rva hop =>
      hasked path rva (hop ▸ List.mem_cons_self)
    have hrest := ih hstep (by omega) fun path rva hop =>
      hasked path rva (List.mem_cons_of_mem _ hop)
    rw [show n + (rest.length + 1) = n + 1 + rest.length by omega]
    exact hrest

end Settled

end Symbolizer

end Postmortem
