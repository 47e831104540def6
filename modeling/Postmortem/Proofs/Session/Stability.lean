import Postmortem.Proofs.Session.Step

/-!
# What was read stays

What was read of a module for a question stays as it is, found or not, whatever happens to files,
modules and memory afterwards, until the module is unloaded or its process detached. Then the record
of the module is gone, and the next event that needs one makes a new record.
-/
namespace Postmortem

/-- A later state of a record: what was read stays. -/
structure ModuleRecord.GrowsTo (r later : ModuleRecord) : Prop where
  base_eq : later.base = r.base
  path_eq : later.path = r.path
  contents_eq : ∀ m, r.contents = some m → later.contents = some m

namespace ModuleRecord.GrowsTo

theorem refl (r : ModuleRecord) : r.GrowsTo r := ⟨rfl, rfl, fun _ h => h⟩

theorem trans {r₁ r₂ r₃ : ModuleRecord} (h₁ : r₁.GrowsTo r₂) (h₂ : r₂.GrowsTo r₃) :
    r₁.GrowsTo r₃ where
  base_eq := h₂.base_eq.trans h₁.base_eq
  path_eq := h₂.path_eq.trans h₁.path_eq
  contents_eq m hm := h₂.contents_eq m (h₁.contents_eq m hm)

end ModuleRecord.GrowsTo

/-- Whether an event drops the record of the module at a base. -/
def Event.Drops (p : ProcessId) (b : UInt64) : Event → Prop
  | .operation (.detach q) => q = p
  | .operation (.moduleUnloaded q a) => q = p ∧ a = b
  | _ => False

/-- There is a record of the module at a base that a given record has grown to. -/
structure LiveSymbolizer.Holds (p : ProcessId) (b : UInt64) (r : ModuleRecord)
    (s : LiveSymbolizer) : Prop where
  keyed : s.cache.Keyed
  grown : ∃ later, s.cache.record? p b = some later ∧ r.GrowsTo later

namespace LiveSymbolizer.Holds

variable {p : ProcessId} {b : UInt64} {r : ModuleRecord} {s : LiveSymbolizer} (h : s.Holds p b r)

include h

theorem attach (q : ProcessId) : (s.attach q).Holds p b r := by
  obtain ⟨later, hl, hg⟩ := h.grown
  exact ⟨h.keyed.attach, later, by rw [LiveSymbolizer.attach, s.cache.record?_attach, hl], hg⟩

theorem detach (q : ProcessId) (hq : q ≠ p) : (s.detach q).2.Holds p b r := by
  obtain ⟨later, hl, hg⟩ := h.grown
  refine ⟨h.keyed.detach, later, ?_, hg⟩
  have hr := s.cache.record?_detach q p b
  rw [if_neg (Ne.symm hq), hl] at hr
  exact hr

theorem unload (q : ProcessId) (a : UInt64) (hqa : ¬ (q = p ∧ a = b)) :
    (s.moduleUnloaded q a).2.Holds p b r := by
  obtain ⟨later, hl, hg⟩ := h.grown
  refine ⟨h.keyed.unload, later, ?_, hg⟩
  have hr := s.cache.record?_unload q p b a
  rw [if_neg (fun hpb => hqa ⟨hpb.1.symm, hpb.2.symm⟩), hl] at hr
  exact hr

/-- Loading a module again does not change its record. -/
theorem load (q : ProcessId) (a : UInt64) (path : Option String) :
    (s.moduleLoadedFrom q a path).2.Holds p b r := by
  obtain ⟨later, hl, hg⟩ := h.grown
  refine ⟨h.keyed.load, later, ?_, hg⟩
  by_cases hq : s.cache.isAttached q = true
  · have hr := s.cache.record?_load q p b a path hq
    by_cases hpb : p = q ∧ b = a
    · obtain ⟨rfl, rfl⟩ := hpb
      rw [if_pos ⟨rfl, rfl⟩, ModuleCache.loaded, hl, Option.getD_some] at hr
      exact hr
    · rw [if_neg hpb, hl] at hr
      exact hr
  · rw [moduleLoadedFrom, s.cache.load_of_not_isAttached q a path hq]
    exact hl

/-- A question reads a module at most once. -/
theorem asked (w : World) (q : ProcessId) (a : UInt64) (decoded : Decoded (s.contentsAt w q a))
    (hq : s.cache.isAttached q = true) : (s.asked w q a decoded).Holds p b r := by
  obtain ⟨later, hl, hg⟩ := h.grown
  have hr := s.asked_record? w q p b a decoded h.keyed hq
  by_cases hpb : p = q ∧ b = a
  · obtain ⟨rfl, rfl⟩ := hpb
    have hat := s.recordAt_of_record? w p b hl
    rw [if_pos ⟨rfl, rfl⟩] at hr
    refine ⟨s.asked_keyed w p b decoded h.keyed, _, hr, hg.trans ?_⟩
    refine ⟨by rw [hat], by rw [hat], ?_⟩
    intro m hm
    exact congrArg some (s.contentsAt_of_contents w p b (by rw [hat, hm]))
  · rw [if_neg hpb, hl] at hr
    exact ⟨s.asked_keyed w q a decoded h.keyed, later, hr, hg⟩

end LiveSymbolizer.Holds

namespace Session

variable {p : ProcessId} {b : UInt64} {r : ModuleRecord}

theorem keptByLookups_holds (w : World) (p : ProcessId) (b : UInt64) (r : ModuleRecord) :
    KeptByLookups w (LiveSymbolizer.Holds p b r) where
  load _ q a _ h := h.load q a _
  asked _ q a decoded hq h := h.asked w q a decoded hq

/-- Only events that drop a record take it away. -/
theorem step_holds (s : Session) (event : Event) (hd : ¬ event.Drops p b)
    (h : s.symbolizer.live.Holds p b r) : (s.step event).symbolizer.live.Holds p b r := by
  cases event with
  | loadedFrom q a path => exact h.load q a path
  | change world => exact h
  | operation operation =>
    cases operation with
    | attach q => exact h.attach q
    | detach q => exact h.detach q hd
    | moduleLoaded q a => exact h.load q a _
    | moduleUnloaded q a => exact h.unload q a hd
    | lookupModule q a => exact (keptByLookups_holds s.world p b r).lookup _ q a h
    | ask k q a => exact (keptByLookups_holds s.world p b r).ask k _ q a h
    | resolveInFile path rva => exact h
    | setDemangle demangle => exact ⟨h.keyed, h.grown⟩
    | addSource source => exact ⟨h.keyed, h.grown⟩
    | report config request =>
      exact (keptByLookups_holds s.world p b r).report config request _ h

theorem run_holds (s : Session) (events : List Event) (hd : ∀ event ∈ events, ¬ event.Drops p b)
    (h : s.symbolizer.live.Holds p b r) : (s.run events).symbolizer.live.Holds p b r := by
  induction events generalizing s with
  | nil => exact h
  | cons event rest ih =>
    have hs := s.step_holds event (hd event (by simp)) h
    exact ih (s.step event) (fun e he => hd e (by simp [he])) hs

/-- An address lies in the module at a base of an attached process, so questions about it lead
there. -/
def Reaches (s : Session) (p : ProcessId) (a b : UInt64) : Prop :=
  s.cache.isAttached p = true ∧ s.world.processes.moduleBase? p a = some b

/-- All questions that lead to the module at a base are answered from `m`, and nothing is read for
them. -/
def AnswersFrom (s : Session) (p : ProcessId) (b : UInt64) (path : Option String)
    (m : ModuleImage) : Prop :=
  ∀ (k : Question) (a : UInt64), s.Reaches p a b →
    (k.ask s.world p a s.symbolizer.live).1 =
        s.symbolizer.live.outcome { base := b, path }
          (k.answer? s.symbolizer.live.chain ⟨p, a, b, m⟩) ∧
      (s.step (.operation (.ask k p a))).cache.counters.imagesOpened =
        s.cache.counters.imagesOpened ∧
      (s.step (.operation (.ask k p a))).cache.counters.indexesBuilt =
        s.cache.counters.indexesBuilt

/-- A module that was read before is not read again. -/
theorem answersFrom_of_holds (s : Session) (h : s.symbolizer.live.Holds p b r) (m : ModuleImage)
    (hm : r.contents = some m) : s.AnswersFrom p b r.path m := by
  intro k a ha
  obtain ⟨later, hl, hg⟩ := h.grown
  have hc := hg.contents_eq m hm
  have hat := s.symbolizer.live.recordAt_of_record? s.world p b hl
  have hcontents : s.symbolizer.live.contentsAt s.world p b = m :=
    s.symbolizer.live.contentsAt_of_contents s.world p b (by rw [hat, hc])
  have hloaded : later.isLoaded = true := by
    rw [ModuleRecord.isLoaded, ← Option.isSome_map (f := (·.contents))]
    exact Option.isSome_of_eq_some hc
  obtain ⟨decoded, hask⟩ := k.ask_of_module s.world p a b s.symbolizer.live ha.1 ha.2
  have hcounters : (s.step (.operation (.ask k p a))).cache.counters =
      { s.cache.counters with
        modulesCreated :=
          s.cache.counters.modulesCreated + if (s.cache.record? p b).isSome then 0 else 1 } := by
    change (k.ask s.world p a s.symbolizer.live).2.cache.counters = _
    rw [hask, LiveSymbolizer.asked_counters, LiveSymbolizer.countersAt, hat, if_pos hloaded]
    rfl
  refine ⟨?_, ?_, ?_⟩
  · rw [hask, s.symbolizer.live.recordAt_base s.world p b h.keyed, hcontents, hat]
    refine s.symbolizer.live.outcome_congr ?_ ?_ _
    · exact h.keyed p b later hl
    · exact hg.path_eq
  · rw [hcounters]
  · rw [hcounters]

/-- Whether an event needs the record of the module at a base although it does not ask for what is
in the module, and the path that a new record gets then. -/
def Loads (s : Session) (p : ProcessId) (b : UInt64) (path : Option String) : Event → Prop
  | .operation (.moduleLoaded q a) =>
    q = p ∧ a = b ∧ s.cache.isAttached p = true ∧ path = s.world.processes.modulePath? p b
  | .operation (.lookupModule q a) =>
    q = p ∧ s.Reaches p a b ∧ path = s.world.processes.modulePath? p b
  | .loadedFrom q a given => q = p ∧ a = b ∧ s.cache.isAttached p = true ∧ path = given
  | _ => False

/-- What is kept of the module at a base, how long, and what comes after it. -/
structure KeepsUntilDropped (s : Session) (p : ProcessId) (b : UInt64) : Prop where
  /-- A question is answered from what was read before, or else from what is in the module now.
  From then on every question is answered from that, until the record is dropped. -/
  asked : ∀ (k : Question) (a : UInt64), s.Reaches p a b →
    let live := s.symbolizer.live
    let record := (s.cache.record? p b).getD
      { base := b, path := s.world.processes.modulePath? p b }
    let m := record.contents.getD
      (.build s.world.files s.world.processes live.imageLimit p b record.path)
    (k.ask s.world p a live).1 =
        live.outcome { base := b, path := record.path } (k.answer? live.chain ⟨p, a, b, m⟩) ∧
      ∀ events : List Event, (∀ event ∈ events, ¬ event.Drops p b) →
        let t := (s.step (.operation (.ask k p a))).run events
        (t.cache.record? p b).bind (·.contents) = some m ∧ t.AnswersFrom p b record.path m
  /-- A record that was not read yet stays as well. -/
  kept : ∀ r, s.cache.record? p b = some r →
    ∀ events : List Event, (∀ event ∈ events, ¬ event.Drops p b) →
      ∃ later, (s.run events).cache.record? p b = some later ∧ r.GrowsTo later
  /-- When a module is unloaded or its process detached, its record is gone. -/
  dropped : ∀ event : Event, event.Drops p b → (s.step event).cache.record? p b = none
  /-- The next event that needs a record makes one, of which nothing was read. -/
  loaded_anew : s.cache.record? p b = none → ∀ (event : Event) (path : Option String),
    s.Loads p b path event →
      (s.step event).cache.record? p b = some { base := b, path } ∧
        (s.step event).cache.counters.modulesCreated = s.cache.counters.modulesCreated + 1
  /-- So does the next question. -/
  asked_anew : s.cache.record? p b = none → ∀ (k : Question) (a : UInt64), s.Reaches p a b →
    (s.step (.operation (.ask k p a))).cache.counters.modulesCreated =
      s.cache.counters.modulesCreated + 1
  /-- A report makes and keeps records as some lookups and questions do that come one after the
  other. -/
  reported : ∀ (config : RenderConfig) (request : Report.Request), ∃ lookups : List Operation,
    (∀ operation ∈ lookups, operation.IsLookup) ∧
      s.step (.operation (.report config request)) = s.run (lookups.map .operation)

theorem run_operations (s : Session) (operations : List Operation) :
    s.run (operations.map .operation) =
      { s with symbolizer := s.symbolizer.performAll s.world operations } := by
  induction operations generalizing s with
  | nil => rfl
  | cons operation rest ih => exact ih (s.step (.operation operation))

theorem step_report (s : Session) (config : RenderConfig) (request : Report.Request) :
    ∃ lookups : List Operation, (∀ operation ∈ lookups, operation.IsLookup) ∧
      s.step (.operation (.report config request)) = s.run (lookups.map .operation) := by
  obtain ⟨lookups, hall, hs⟩ := s.symbolizer.perform_report s.world config request
  refine ⟨lookups, hall, ?_⟩
  rw [s.run_operations, ← hs]
  rfl

section Loads

variable (s : Session)

/-- A module of which there is no record gets one that has not been read. -/
theorem load_anew (hn : s.cache.record? p b = none) (hp : s.cache.isAttached p = true)
    (path : Option String) :
    (s.cache.load p b path).2.record? p b = some { base := b, path } ∧
      (s.cache.load p b path).2.counters.modulesCreated = s.cache.counters.modulesCreated + 1 := by
  constructor
  · rw [s.cache.record?_load p p b b path hp, if_pos ⟨rfl, rfl⟩, ModuleCache.loaded, hn]
    rfl
  · rw [s.cache.counters_load p b path hp, hn]
    rfl

theorem step_of_loads (hn : s.cache.record? p b = none) (event : Event) (path : Option String)
    (he : s.Loads p b path event) :
    (s.step event).cache.record? p b = some { base := b, path } ∧
      (s.step event).cache.counters.modulesCreated = s.cache.counters.modulesCreated + 1 := by
  cases event with
  | change world => exact he.elim
  | loadedFrom q a given =>
    obtain ⟨rfl, rfl, hp, rfl⟩ := he
    exact s.load_anew hn hp path
  | operation operation =>
    cases operation with
    | moduleLoaded q a =>
      obtain ⟨rfl, rfl, hp, rfl⟩ := he
      exact s.load_anew hn hp _
    | lookupModule q a =>
      obtain ⟨rfl, ⟨hp, ha⟩, rfl⟩ := he
      change (s.symbolizer.live.lookupModule s.world q a).2.cache.record? q b = _ ∧
        (s.symbolizer.live.lookupModule s.world q a).2.cache.counters.modulesCreated = _
      rw [s.symbolizer.live.lookupModule_of_module s.world q a b hp ha]
      exact s.load_anew hn hp _
    | _ => exact he.elim

/-- A question about a module of which there is no record makes one as well. -/
theorem ask_anew (hn : s.cache.record? p b = none) (k : Question) (a : UInt64)
    (ha : s.Reaches p a b) :
    (s.step (.operation (.ask k p a))).cache.counters.modulesCreated =
      s.cache.counters.modulesCreated + 1 := by
  obtain ⟨decoded, hask⟩ := k.ask_of_module s.world p a b s.symbolizer.live ha.1 ha.2
  change (k.ask s.world p a s.symbolizer.live).2.cache.counters.modulesCreated = _
  rw [hask, LiveSymbolizer.asked_counters, s.symbolizer.live.countersAt_modulesCreated]
  change s.cache.counters.modulesCreated + (if (s.cache.record? p b).isSome then 0 else 1) = _
  rw [hn]
  rfl

end Loads

theorem step_of_drops (s : Session) (event : Event) (hd : event.Drops p b) :
    (s.step event).cache.record? p b = none := by
  cases event with
  | change world => exact hd.elim
  | loadedFrom q a path => exact hd.elim
  | operation operation =>
    cases operation with
    | detach q =>
      have hr := s.cache.record?_detach q p b
      rw [if_pos (Eq.symm hd)] at hr
      exact hr
    | moduleUnloaded q a =>
      have hr := s.cache.record?_unload q p b a
      rw [if_pos ⟨hd.1.symm, hd.2.symm⟩] at hr
      exact hr
    | _ => exact hd.elim

/-- After a question there is a record with what the question found in the module. -/
theorem holds_of_ask (s : Session) (hk : s.cache.Keyed) (k : Question) (a : UInt64)
    (ha : s.Reaches p a b) :
    ∃ r, (s.step (.operation (.ask k p a))).symbolizer.live.Holds p b r ∧
      r.path = (s.symbolizer.live.recordAt s.world p b).path ∧
      r.contents = some (s.symbolizer.live.contentsAt s.world p b) := by
  obtain ⟨decoded, hask⟩ := k.ask_of_module s.world p a b s.symbolizer.live ha.1 ha.2
  have hstep : (s.step (.operation (.ask k p a))).symbolizer.live =
      s.symbolizer.live.asked s.world p b decoded := congrArg Prod.snd hask
  have hr := s.symbolizer.live.asked_record? s.world p p b b decoded hk ha.1
  rw [if_pos ⟨rfl, rfl⟩] at hr
  rw [hstep]
  exact ⟨_, ⟨s.symbolizer.live.asked_keyed s.world p b decoded hk, _, hr, .refl _⟩, rfl, rfl⟩

/-- In every session, and whatever happens to the world, what was read of a module stays until the
module is unloaded or its process detached. -/
theorem run_keepsUntilDropped (world : World) (config : Config) (native : Option NativeSymbolizer)
    (chain : Option SourceChain) (events : List Event) (p : ProcessId) (b : UInt64) :
    ((start world config native chain).run events).KeepsUntilDropped p b := by
  have hk : ((start world config native chain).run events).symbolizer.live.cache.Keyed :=
    kept_keyed.run _ events ModuleCache.keyed_empty
  generalize (start world config native chain).run events = s at hk
  refine ⟨?_, ?_, s.step_of_drops, fun hn event path => s.step_of_loads hn event path,
    fun hn k a => s.ask_anew hn k a, s.step_report⟩
  · intro k a ha live record m
    have hat : live.recordAt s.world p b = record := rfl
    have hbase : record.base = b := live.recordAt_base s.world p b hk
    have hm : live.contentsAt s.world p b = m := by
      change record.contents.getD (.build _ _ _ p record.base record.path) = m
      rw [hbase]
    constructor
    · obtain ⟨decoded, hask⟩ := k.ask_of_module s.world p a b live ha.1 ha.2
      rw [hask, hm, hat, hbase]
      refine live.outcome_congr ?_ ?_ _
      · exact hbase
      · rfl
    · intro later hd
      obtain ⟨r, hheld, hpath, hcontents⟩ := s.holds_of_ask hk k a ha
      have hrun := Session.run_holds _ later hd hheld
      have hr : r.contents = some m := hcontents.trans (congrArg some hm)
      obtain ⟨grown, hl, hg⟩ := hrun.grown
      constructor
      · rw [cache, hl]
        exact hg.contents_eq m hr
      · have hanswers := answersFrom_of_holds _ hrun m hr
        rwa [hpath] at hanswers
  · intro r hr later hd
    exact (s.run_holds later hd ⟨hk, r, hr, .refl r⟩).grown

/-- A process with one module that has no file and cannot be read. -/
def unreadableWorld : World where
  processes := ({} : ProcessMap).addModule ⟨1⟩ 0x1000 0x1000 none

/-- That nothing could be read of a module stays as well, whatever can be read of it later. -/
theorem unreadable_stays :
    let s := (start unreadableWorld {} none none).run [.operation (.attach ⟨1⟩)]
    s.Reaches ⟨1⟩ 0x1010 0x1000 ∧
      ∀ events : List Event, (∀ event ∈ events, ¬ event.Drops ⟨1⟩ 0x1000) →
        let t := (s.step (.operation (.ask .symbol ⟨1⟩ 0x1010))).run events
        (t.cache.record? ⟨1⟩ 0x1000).bind (·.contents) = some ⟨none, none⟩ := by
  intro s
  have hreaches : s.Reaches ⟨1⟩ 0x1010 0x1000 := ⟨by decide, by decide⟩
  refine ⟨hreaches, ?_⟩
  intro events hd
  have h := run_keepsUntilDropped unreadableWorld {} none none [.operation (.attach ⟨1⟩)]
    ⟨1⟩ 0x1000
  exact ((h.asked .symbol 0x1010 hreaches).2 events hd).1

end Session

end Postmortem
