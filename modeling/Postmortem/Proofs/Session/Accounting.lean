import Postmortem.Proofs.Cache.Count
import Postmortem.Proofs.Module.Contents
import Postmortem.Proofs.Session.Step

/-!
# What the counters count

Every record that was made is still there or was dropped. At most one image is opened for a record
and at most one index is built for an image, so the counters never overtake each other. This holds
in every session, together with the bounds on what a record may have of its module.
-/
namespace Postmortem

/-- How many images may still be opened for a record. -/
def ModuleRecord.unread (r : ModuleRecord) : Nat := if r.isLoaded then 0 else 1

theorem ModuleImage.IsSound.debug_le_image {limit : Nat} {m : ModuleImage} (h : m.IsSound limit) :
    (if m.debug.isSome then 1 else 0) ≤ if m.image.isSome then 1 else 0 := by
  by_cases hd : m.debug.isSome = true
  · obtain ⟨debug, hdebug⟩ := Option.isSome_iff_exists.mp hd
    obtain ⟨image, himage, _⟩ := h.file_of_debug debug hdebug
    rw [himage, hdebug]
    exact Nat.le_refl 1
  · rw [if_neg hd]
    exact Nat.zero_le _

/-- The invariant behind the bounds. Each image that was opened belongs to a record that was made
and is not waiting to be read. -/
structure LiveSymbolizer.Accounts (limit : Nat) (s : LiveSymbolizer) : Prop where
  keyed : s.cache.Keyed
  limit_eq : s.imageLimit = limit
  indexes_le : s.cache.counters.indexesBuilt ≤ s.cache.counters.imagesOpened
  images_le : s.cache.counters.imagesOpened + s.cache.total ModuleRecord.unread ≤
    s.cache.counters.modulesCreated
  isSound : ∀ p b r m, s.cache.record? p b = some r → r.contents = some m → m.IsSound limit

namespace LiveSymbolizer

section Balance

variable (s : LiveSymbolizer) (p : ProcessId) (b : UInt64)

/-- Loading a module adds the record that it makes. -/
theorem load_balance (path : Option String) :
    (s.cache.load p b path).2.counters.modulesCreated + s.cache.recordCount =
      s.cache.counters.modulesCreated + (s.cache.load p b path).2.recordCount := by
  by_cases hp : s.cache.isAttached p = true
  · cases h : s.cache.record? p b with
    | some r => rw [s.cache.load_of_record? p b path h]
    | none =>
      have hc := s.cache.counters_load p b path hp
      have ht := s.cache.total_load_of_new p b (fun _ => 1) path hp h
      rw [h] at hc
      rw [ModuleCache.recordCount_eq_total, ModuleCache.recordCount_eq_total, ht, hc]
      simp only [Option.isSome_none, Bool.false_eq_true, if_false]
      omega
  · rw [s.cache.load_of_not_isAttached p b path hp]

/-- What a question changes in a sum over all records. -/
theorem asked_total (w : World) (decoded : Decoded (s.contentsAt w p b))
    (weight : ModuleRecord → Nat) (hk : s.cache.Keyed) (hp : s.cache.isAttached p = true) :
    (s.asked w p b decoded).cache.total weight + (s.cache.record? p b).elim 0 weight =
      s.cache.total weight +
        weight { s.recordAt w p b with read := some ⟨s.contentsAt w p b, decoded⟩ } := by
  have ht := s.cache.total_keep p weight
    { s.recordAt w p b with read := some ⟨s.contentsAt w p b, decoded⟩ } hp
  rw [s.recordAt_base w p b hk] at ht
  exact ht

theorem asked_balance (w : World) (decoded : Decoded (s.contentsAt w p b)) (hk : s.cache.Keyed)
    (hp : s.cache.isAttached p = true) :
    (s.asked w p b decoded).cache.counters.modulesCreated + s.cache.recordCount =
      s.cache.counters.modulesCreated + (s.asked w p b decoded).cache.recordCount := by
  have ht := s.asked_total p b w decoded (fun _ => 1) hk hp
  rw [asked_counters, countersAt_modulesCreated, ModuleCache.recordCount_eq_total,
    ModuleCache.recordCount_eq_total]
  cases h : s.cache.record? p b with
  | some r =>
    rw [h] at ht
    simp only [Option.elim, Option.isSome_some, if_true] at ht ⊢
    omega
  | none =>
    rw [h] at ht
    simp only [Option.elim, Option.isSome_none, Bool.false_eq_true, if_false] at ht ⊢
    omega

end Balance

namespace Accounts

variable {limit : Nat} {s : LiveSymbolizer} (h : s.Accounts limit)

include h

/-- Fewer records only leave more room. -/
theorem shrink {t : LiveSymbolizer} (hkeyed : t.cache.Keyed) (hlimit : t.imageLimit = s.imageLimit)
    (hcounters : t.cache.counters = s.cache.counters)
    (htotal : t.cache.total ModuleRecord.unread ≤ s.cache.total ModuleRecord.unread)
    (hrecords : ∀ p b r, t.cache.record? p b = some r → s.cache.record? p b = some r) :
    t.Accounts limit := by
  have hi := h.images_le
  refine ⟨hkeyed, hlimit.trans h.limit_eq, ?_, ?_, ?_⟩
  · rw [hcounters]
    exact h.indexes_le
  · rw [hcounters]
    omega
  · intro p b r m hr hm
    exact h.isSound p b r m (hrecords p b r hr) hm

theorem attach (p : ProcessId) : (s.attach p).Accounts limit := by
  refine h.shrink h.keyed.attach rfl (s.cache.counters_attach p) ?_ ?_
  · exact Nat.le_of_eq (s.cache.total_attach p _)
  · intro q b r hr
    exact (s.cache.record?_attach p q b).symm.trans hr

theorem detach (p : ProcessId) : (s.detach p).2.Accounts limit := by
  have ht := s.cache.total_detach p ModuleRecord.unread
  refine h.shrink h.keyed.detach rfl (s.cache.counters_detach p) ?_ ?_
  · change (s.cache.detach p).2.total _ ≤ _
    omega
  · intro q b r hr
    exact s.cache.record?_of_record?_detach p q b hr

theorem unload (p : ProcessId) (b : UInt64) : (s.moduleUnloaded p b).2.Accounts limit := by
  have ht := s.cache.total_unload p b ModuleRecord.unread
  refine h.shrink h.keyed.unload rfl (s.cache.counters_unload p b) ?_ ?_
  · change (s.cache.unload p b).2.total _ ≤ _
    omega
  · intro q a r hr
    exact s.cache.record?_of_record?_unload p q a b hr

/-- A new record makes room for one image. -/
theorem load (p : ProcessId) (b : UInt64) (path : Option String) :
    (s.moduleLoadedFrom p b path).2.Accounts limit := by
  by_cases hp : s.cache.isAttached p = true
  · cases hr : s.cache.record? p b with
    | some r =>
      rw [moduleLoadedFrom, s.cache.load_of_record? p b path hr]
      exact h
    | none =>
      have hc := s.cache.counters_load p b path hp
      have ht := s.cache.total_load_of_new p b ModuleRecord.unread path hp hr
      have hunread : ModuleRecord.unread { base := b, path } = 1 := rfl
      have hi := h.images_le
      rw [hr] at hc
      refine ⟨h.keyed.load, h.limit_eq, ?_, ?_, ?_⟩
      · change (s.cache.load p b path).2.counters.indexesBuilt ≤
          (s.cache.load p b path).2.counters.imagesOpened
        rw [hc]
        exact h.indexes_le
      · change (s.cache.load p b path).2.counters.imagesOpened + (s.cache.load p b path).2.total _ ≤
          (s.cache.load p b path).2.counters.modulesCreated
        rw [hc, ht, hunread]
        simp only [Option.isSome_none, Bool.false_eq_true, if_false]
        omega
      · intro q a r m ha hm
        change (s.cache.load p b path).2.record? q a = some r at ha
        rw [s.cache.record?_load p q a b path hp] at ha
        split at ha
        · rw [ModuleCache.loaded, hr] at ha
          rw [← Option.some.inj ha] at hm
          cases hm
        · exact h.isSound q a r m ha hm
  · rw [moduleLoadedFrom, s.cache.load_of_not_isAttached p b path hp]
    exact h

/-- What a question finds in a module keeps to the bounds. -/
theorem isSound_contentsAt (w : World) (p : ProcessId) (b : UInt64) :
    (s.contentsAt w p b).IsSound limit := by
  rw [contentsAt, build, h.limit_eq]
  cases hm : (s.recordAt w p b).contents with
  | none => exact ModuleImage.isSound_build ..
  | some m =>
    rw [recordAt, ModuleCache.loaded] at hm
    cases hr : s.cache.record? p b with
    | none =>
      rw [hr] at hm
      cases hm
    | some r =>
      rw [hr] at hm
      exact h.isSound p b r m hr hm

/-- Reading a module takes the room of its record. -/
theorem asked (w : World) (p : ProcessId) (b : UInt64) (decoded : Decoded (s.contentsAt w p b))
    (hp : s.cache.isAttached p = true) : (s.asked w p b decoded).Accounts limit := by
  have hsound := h.isSound_contentsAt w p b
  have hx := h.indexes_le
  have hi := h.images_le
  refine ⟨s.asked_keyed w p b decoded h.keyed, h.limit_eq, ?_, ?_, ?_⟩
  · have hd := hsound.debug_le_image
    rw [asked_counters, countersAt]
    split
    · exact hx
    · dsimp only [CacheCounters.count]
      omega
  · have ht := s.asked_total p b w decoded ModuleRecord.unread h.keyed hp
    have hopened : (s.countersAt w p b).imagesOpened ≤
        s.cache.counters.imagesOpened + (s.recordAt w p b).unread :=
      s.imagesOpened_countersAt_le w p b
    have hread : ModuleRecord.unread
        { s.recordAt w p b with read := some ⟨s.contentsAt w p b, decoded⟩ } = 0 := rfl
    rw [asked_counters, countersAt_modulesCreated]
    rw [hread] at ht
    cases hr : s.cache.record? p b with
    | some r =>
      rw [s.recordAt_of_record? w p b hr] at hopened
      rw [hr] at ht
      simp only [Option.elim, Option.isSome_some, if_true] at ht ⊢
      omega
    | none =>
      have hat : (s.recordAt w p b).unread = 1 := by
        rw [recordAt, ModuleCache.loaded, hr]
        rfl
      rw [hat] at hopened
      rw [hr] at ht
      simp only [Option.elim, Option.isSome_none, Bool.false_eq_true, if_false] at ht ⊢
      omega
  · intro q a r m hr hm
    rw [s.asked_record? w p q a b decoded h.keyed hp] at hr
    split at hr
    · rw [← Option.some.inj hr] at hm
      rw [← Option.some.inj hm]
      exact hsound
    · exact h.isSound q a r m hr hm

end Accounts

end LiveSymbolizer

namespace Session

variable {limit : Nat}

theorem kept_accounts : Kept (LiveSymbolizer.Accounts limit) where
  attach _ p h := h.attach p
  detach _ p h := h.detach p
  load _ p b path h := h.load p b path
  unload _ p b h := h.unload p b
  asked _ w p b decoded hp h := h.asked w p b decoded hp
  setDemangle _ _ h := ⟨h.keyed, h.limit_eq, h.indexes_le, h.images_le, h.isSound⟩
  addSource _ _ h := ⟨h.keyed, h.limit_eq, h.indexes_le, h.images_le, h.isSound⟩

/-- How many records an event drops. -/
def droppedBy (s : Session) : Event → Nat
  | .operation (.detach p) => (s.cache.moduleCount? p).getD 0
  | .operation (.moduleUnloaded p b) => if (s.cache.record? p b).isSome then 1 else 0
  | _ => 0

/-- How many records are dropped in the course of events. -/
def dropped (s : Session) : List Event → Nat
  | [] => 0
  | event :: events => s.droppedBy event + (s.step event).dropped events

/-- A symbolizer in whose cache no record was dropped since an earlier state. -/
structure Balanced (made count : Nat) (s : LiveSymbolizer) : Prop where
  keyed : s.cache.Keyed
  made_eq : s.cache.counters.modulesCreated + count = made + s.cache.recordCount

theorem Balanced.load {made count : Nat} {s : LiveSymbolizer} (h : Balanced made count s)
    (p : ProcessId) (b : UInt64) (path : Option String) :
    Balanced made count (s.moduleLoadedFrom p b path).2 := by
  have hb := s.load_balance p b path
  have he := h.made_eq
  refine ⟨h.keyed.load, ?_⟩
  change (s.cache.load p b path).2.counters.modulesCreated + count =
    made + (s.cache.load p b path).2.recordCount
  omega

theorem keptByLookups_balanced (w : World) (made count : Nat) :
    KeptByLookups w (Balanced made count) where
  load _ p b _ h := h.load p b _
  asked s p b decoded hp h := by
    have hb := s.asked_balance p b w decoded h.keyed hp
    have he := h.made_eq
    exact ⟨s.asked_keyed w p b decoded h.keyed, by omega⟩

/-- Records are made, kept and dropped, but never lost. -/
theorem step_balance (s : Session) (hk : s.cache.Keyed) (event : Event) :
    (s.step event).cache.counters.modulesCreated + s.cache.recordCount =
      s.cache.counters.modulesCreated + (s.step event).cache.recordCount + s.droppedBy event := by
  have h : Balanced s.cache.counters.modulesCreated s.cache.recordCount s.symbolizer.live :=
    ⟨hk, rfl⟩
  have hkept := keptByLookups_balanced s.world s.cache.counters.modulesCreated s.cache.recordCount
  cases event with
  | change world => rfl
  | loadedFrom p b path => exact (h.load p b path).made_eq
  | operation operation =>
    cases operation with
    | attach p =>
      have hc := s.cache.counters_attach p
      have ht := s.cache.total_attach p fun _ => 1
      rw [← ModuleCache.recordCount_eq_total, ← ModuleCache.recordCount_eq_total] at ht
      change (s.cache.attach p).counters.modulesCreated + s.cache.recordCount =
        s.cache.counters.modulesCreated + (s.cache.attach p).recordCount + 0
      rw [hc, ht, Nat.add_zero]
    | detach p =>
      have hc := s.cache.counters_detach p
      have ht := s.cache.total_detach p fun _ => 1
      have hd : s.droppedBy (.operation (.detach p)) =
          (s.cache.processes.get? p).elim 0 (·.total fun _ => 1) := by
        rw [droppedBy, ModuleCache.moduleCount?]
        cases s.cache.processes.get? p with
        | none => rfl
        | some records => exact records.total_one.symm
      rw [← ModuleCache.recordCount_eq_total, ← ModuleCache.recordCount_eq_total] at ht
      change (s.cache.detach p).2.counters.modulesCreated + s.cache.recordCount =
        s.cache.counters.modulesCreated + (s.cache.detach p).2.recordCount + _
      rw [hc, hd]
      omega
    | moduleUnloaded p b =>
      have hc := s.cache.counters_unload p b
      have ht := s.cache.total_unload p b fun _ => 1
      have hd : s.droppedBy (.operation (.moduleUnloaded p b)) =
          (s.cache.record? p b).elim 0 fun _ => 1 := by
        rw [droppedBy]
        cases s.cache.record? p b <;> rfl
      rw [← ModuleCache.recordCount_eq_total, ← ModuleCache.recordCount_eq_total] at ht
      change (s.cache.unload p b).2.counters.modulesCreated + s.cache.recordCount =
        s.cache.counters.modulesCreated + (s.cache.unload p b).2.recordCount + _
      rw [hc, hd]
      omega
    | moduleLoaded p b => exact (h.load p b _).made_eq
    | lookupModule p a => exact (hkept.lookup _ p a h).made_eq
    | ask k p a => exact (hkept.ask k _ p a h).made_eq
    | report config request => exact (hkept.report config request _ h).made_eq
    | resolveInFile path rva => rfl
    | setDemangle demangle => rfl
    | addSource source => rfl

theorem run_balance (s : Session) (hk : s.cache.Keyed) (events : List Event) :
    (s.run events).cache.counters.modulesCreated + s.cache.recordCount =
      s.cache.counters.modulesCreated + (s.run events).cache.recordCount + s.dropped events := by
  induction events generalizing s with
  | nil => rfl
  | cons event rest ih =>
    have hs := s.step_balance hk event
    have hr := ih (s.step event) (kept_keyed.step s event hk)
    have hrun : s.run (event :: rest) = (s.step event).run rest := rfl
    rw [hrun, dropped]
    omega

/-- What holds of a cache from which so many records were dropped, when images of at most `limit`
bytes are read. -/
structure Accounted (limit dropped : Nat) (c : ModuleCache) : Prop where
  /-- Every process has at most one record for a base, and it is in the place of that base. -/
  nodup_bases : ∀ p records, c.processes.get? p = some records →
    (records.entries.map fun e => e.2.base).Nodup
  base_eq : ∀ p b r, c.record? p b = some r → r.base = b
  /-- Every record that was made is there or was dropped. -/
  modulesCreated_eq : c.counters.modulesCreated = c.recordCount + dropped
  indexesBuilt_le : c.counters.indexesBuilt ≤ c.counters.imagesOpened
  imagesOpened_le : c.counters.imagesOpened ≤ c.counters.modulesCreated
  /-- Debug information comes with an image in the layout of files. -/
  file_of_debug : ∀ p b r m debug, c.record? p b = some r → r.contents = some m →
    m.debug = some debug → ∃ image, m.image = some image ∧ image.options.layout = .file
  /-- No image is larger than the limit. -/
  size_le : ∀ p b r m image, c.record? p b = some r → r.contents = some m →
    m.image = some image → image.data.size ≤ limit

/-- Records that are in the place of their base have different bases. -/
theorem nodup_bases_of_keyed {c : ModuleCache} (hk : c.Keyed) (p : ProcessId)
    (records : Table UInt64 ModuleRecord) (hp : c.processes.get? p = some records) :
    (records.entries.map fun e => e.2.base).Nodup := by
  have hmap : (records.entries.map fun e => e.2.base) = records.entries.map Prod.fst := by
    apply List.map_congr_left
    intro e he
    exact hk p e.1 e.2 (by simp [ModuleCache.record?, hp, records.get?_of_mem he])
  rw [hmap]
  exact records.nodup

/-- In every session, whatever happens in it, the counters count the records and what was read of
their modules, and every record keeps to the bounds. -/
theorem run_accounted (world : World) (config : Config) (native : Option NativeSymbolizer)
    (chain : Option SourceChain) (events : List Event) :
    let s := start world config native chain
    Accounted config.images.maxImageSize.toNat (s.dropped events) (s.run events).cache := by
  intro s
  have hstart : s.symbolizer.live.Accounts config.images.maxImageSize.toNat := by
    refine ⟨ModuleCache.keyed_empty, rfl, Nat.le_refl _, Nat.le_refl _, ?_⟩
    intro p b r m hr
    cases hr
  have h : (s.run events).symbolizer.live.Accounts config.images.maxImageSize.toNat :=
    kept_accounts.run s events hstart
  have hbalance := s.run_balance hstart.keyed events
  have hmade : s.cache.counters.modulesCreated = 0 := rfl
  have hcount : s.cache.recordCount = 0 := rfl
  have himages := h.images_le
  refine ⟨nodup_bases_of_keyed h.keyed, h.keyed, ?_, h.indexes_le, ?_, ?_, ?_⟩
  · omega
  · change (s.run events).symbolizer.live.cache.counters.imagesOpened ≤ _
    exact Nat.le_trans (Nat.le_add_right _ _) himages
  · intro p b r m debug hr hm hd
    exact (h.isSound p b r m hr hm).file_of_debug debug hd
  · intro p b r m image hr hm himage
    exact (h.isSound p b r m hr hm).size_le image himage

end Session

end Postmortem
