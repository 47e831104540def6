import Postmortem.Proofs.Cache.Records
import Postmortem.Symbolizer.Session

/-!
# What a question does

A question about an address fails before anything is read, or else it leads to one module. Then its
answer comes from what is in that module, and afterwards there is a record of the module that has
been read. Nothing else of the symbolizer changes.
-/
namespace Postmortem

namespace Question

/-- The answer that a module gives to a question. -/
def answer? (k : Question) (chain : SourceChain) (q : SymbolQuery) : Option ChainAnswer :=
  match k with
  | symbol => chain.resolve? q
  | ownSymbol => ImageSymbol.resolve? q

/-- How the answer is found. -/
def find (k : Question) (chain : SourceChain) (q : SymbolQuery) :
    Recall (Decoded q.contents) (k.answer? chain q) :=
  match k with
  | symbol => chain.recallAnswer q
  | ownSymbol => ImageSymbol.recallAnswer q

theorem ask_eq (k : Question) (w : World) (p : ProcessId) (a : UInt64) (s : LiveSymbolizer) :
    k.ask w p a s = s.ask w p a (k.find s.chain) := by
  cases k <;> rfl

end Question

namespace LiveSymbolizer

variable (s : LiveSymbolizer) (w : World) (p q : ProcessId) (a b : UInt64)

/-- An answer shows only base and path of a record. -/
theorem outcome_congr {r₁ r₂ : ModuleRecord} (hb : r₁.base = r₂.base) (hp : r₁.path = r₂.path)
    (found : Option ChainAnswer) : s.outcome r₁ found = s.outcome r₂ found := by
  cases found with
  | none => rfl
  | some found => simp only [outcome, info, hb, hp]

section Lookup

theorem lookupModule_of_not_isAttached (h : ¬ s.cache.isAttached p = true) :
    s.lookupModule w p a = (.error (.unknownProcess p), s) := by
  rw [lookupModule, ModuleCache.lookup, if_neg h]

theorem lookupModule_of_no_module (h : s.cache.isAttached p = true)
    (ha : w.processes.moduleBase? p a = none) :
    s.lookupModule w p a = (.error (.noModule a), s) := by
  rw [lookupModule, ModuleCache.lookup, if_pos h, ha]

/-- An address in a module is looked up by loading the module. -/
theorem lookupModule_of_module (h : s.cache.isAttached p = true)
    (ha : w.processes.moduleBase? p a = some b) :
    s.lookupModule w p a = s.moduleLoadedFrom p b (w.processes.modulePath? p b) := by
  rw [lookupModule, ModuleCache.lookup, if_pos h, ha]
  rfl

/-- A lookup changes nothing, or it loads the module of the address. -/
theorem lookupModule_snd_cases :
    (s.lookupModule w p a).2 = s ∨
      ∃ b, s.cache.isAttached p = true ∧ w.processes.moduleBase? p a = some b ∧
        (s.lookupModule w p a).2 = (s.moduleLoadedFrom p b (w.processes.modulePath? p b)).2 := by
  by_cases h : s.cache.isAttached p = true
  · cases ha : w.processes.moduleBase? p a with
    | none =>
      left
      rw [s.lookupModule_of_no_module w p a h ha]
    | some b =>
      right
      exact ⟨b, h, rfl, by rw [s.lookupModule_of_module w p a b h ha]⟩
  · left
    rw [s.lookupModule_of_not_isAttached w p a h]

end Lookup

/-- The record that a question about the module at a base uses. -/
def recordAt : ModuleRecord := s.cache.loaded p b (w.processes.modulePath? p b)

/-- What would be read of a module now. -/
def build (r : ModuleRecord) : ModuleImage :=
  .build w.files w.processes s.imageLimit p r.base r.path

/-- What a question about the module at a base finds in it: what was read before, if it was. -/
def contentsAt : ModuleImage :=
  (s.recordAt w p b).contents.getD (s.build w p (s.recordAt w p b))

theorem recordAt_of_record? {r : ModuleRecord} (h : s.cache.record? p b = some r) :
    s.recordAt w p b = r := by
  rw [recordAt, ModuleCache.loaded, h, Option.getD_some]

/-- What was read before is not read again. -/
theorem contentsAt_of_contents {m : ModuleImage} (h : (s.recordAt w p b).contents = some m) :
    s.contentsAt w p b = m := by
  rw [contentsAt, h, Option.getD_some]

/-- The counters after a question about the module at a base. -/
def countersAt : CacheCounters :=
  let n := s.cache.counters
  let made := n.modulesCreated + if (s.cache.record? p b).isSome then 0 else 1
  let seen := { n with modulesCreated := made }
  if (s.recordAt w p b).isLoaded then seen else seen.count (s.contentsAt w p b)

/-- The symbolizer after a question about the module at a base. -/
def asked (decoded : Decoded (s.contentsAt w p b)) : LiveSymbolizer :=
  let record := { s.recordAt w p b with read := some ⟨s.contentsAt w p b, decoded⟩ }
  { s with cache := { s.cache.keep p record with counters := s.countersAt w p b } }

theorem countersAt_modulesCreated :
    (s.countersAt w p b).modulesCreated =
      s.cache.counters.modulesCreated + if (s.cache.record? p b).isSome then 0 else 1 := by
  unfold countersAt
  dsimp only
  split <;> rfl

/-- An image is opened at most for a record that was not read. -/
theorem imagesOpened_countersAt_le :
    (s.countersAt w p b).imagesOpened ≤
      s.cache.counters.imagesOpened + if (s.recordAt w p b).isLoaded then 0 else 1 := by
  rw [countersAt]
  by_cases hloaded : (s.recordAt w p b).isLoaded = true
  · rw [if_pos hloaded, if_pos hloaded]
    exact Nat.le_refl _
  · rw [if_neg hloaded, if_neg hloaded]
    dsimp only [CacheCounters.count]
    split <;> omega

section Ask

variable {answer : SymbolQuery → Option ChainAnswer}
  (find : (q : SymbolQuery) → Recall (Decoded q.contents) (answer q))

theorem ask_of_not_isAttached (h : ¬ s.cache.isAttached p = true) :
    s.ask w p a find = (.error (.unknownProcess p), s) := by
  rw [ask, lookupContents, s.lookupModule_of_not_isAttached w p a h]

theorem ask_of_no_module (h : s.cache.isAttached p = true)
    (ha : w.processes.moduleBase? p a = none) :
    s.ask w p a find = (.error (.noModule a), s) := by
  rw [ask, lookupContents, s.lookupModule_of_no_module w p a h ha]

/-- The whole of what a question does that leads to a module. -/
theorem ask_of_module (h : s.cache.isAttached p = true)
    (ha : w.processes.moduleBase? p a = some b) :
    ∃ decoded, s.ask w p a find =
      (s.outcome (s.recordAt w p b)
        (answer ⟨p, a, (s.recordAt w p b).base, s.contentsAt w p b⟩),
       s.asked w p b decoded) := by
  let r := s.recordAt w p b
  let loaded := (s.cache.load p b (w.processes.modulePath? p b)).2
  let read := loaded.read w.files w.processes s.imageLimit p r
  have hload : s.cache.load p b (w.processes.modulePath? p b) = (.ok r, loaded) :=
    Prod.ext (s.cache.load_fst p b _ h) rfl
  have hl : s.lookupContents w p a = (.ok (r, read.1), { s with cache := read.2 }) := by
    rw [lookupContents, s.lookupModule_of_module w p a b h ha, moduleLoadedFrom, hload]
    rfl
  have hm : read.1.contents = s.contentsAt w p b := loaded.read_contents ..
  have hk : ∀ later : ModuleRecord, later.base = r.base →
      read.2.keep p later = { s.cache.keep p later with counters := s.countersAt w p b } := by
    intro later hlater
    rw [loaded.keep_read p _ _ _ r later hlater, hm, s.cache.keep_load p b _ h later hlater,
      s.cache.counters_load p b _ h]
    rfl
  cases hread : read.1 with
  | mk contents decoded =>
    rw [hread] at hl hm
    subst hm
    refine ⟨((find ⟨p, a, r.base, s.contentsAt w p b⟩).run decoded).2, ?_⟩
    rw [ask, hl]
    simp only [Recall.run_fst, remember]
    rw [hk { r with read := some _ } rfl]
    rfl

end Ask

/-- A module that is loaded as the process has it gets the record that a question would use. -/
theorem recordAt_moduleLoadedFrom (h : s.cache.isAttached p = true) :
    (s.moduleLoadedFrom p b (w.processes.modulePath? p b)).2.recordAt w p a =
      s.recordAt w p a := by
  change ((s.cache.load p b (w.processes.modulePath? p b)).2.record? p a).getD _ = _
  rw [s.cache.record?_load p p a b _ h]
  by_cases hab : a = b
  · rw [if_pos ⟨rfl, hab⟩, Option.getD_some, hab]
    rfl
  · rw [if_neg (fun hboth => hab hboth.2)]
    rfl

section Asked

variable (decoded : Decoded (s.contentsAt w p b))

@[simp] theorem asked_isAttached :
    (s.asked w p b decoded).cache.isAttached q = s.cache.isAttached q :=
  s.cache.isAttached_keep p q _

@[simp] theorem asked_counters : (s.asked w p b decoded).cache.counters = s.countersAt w p b := rfl

theorem asked_keyed (h : s.cache.Keyed) : (s.asked w p b decoded).cache.Keyed :=
  ModuleCache.Keyed.keep h

theorem recordAt_base (h : s.cache.Keyed) : (s.recordAt w p b).base = b := h.loaded_base _

/-- Only the record of the module that was asked about changes. -/
theorem asked_record? (hk : s.cache.Keyed) (hp : s.cache.isAttached p = true) :
    (s.asked w p b decoded).cache.record? q a =
      if q = p ∧ a = b then
        some { s.recordAt w p b with read := some ⟨s.contentsAt w p b, decoded⟩ }
      else s.cache.record? q a := by
  have h := s.cache.record?_keep p q a
    { s.recordAt w p b with read := some ⟨s.contentsAt w p b, decoded⟩ } hp
  rw [s.recordAt_base w p b hk] at h
  exact h

end Asked

end LiveSymbolizer

namespace Question

variable (k : Question) (w : World) (p : ProcessId) (a b : UInt64) (s : LiveSymbolizer)

theorem ask_of_not_isAttached (h : ¬ s.cache.isAttached p = true) :
    k.ask w p a s = (.error (.unknownProcess p), s) := by
  rw [ask_eq, s.ask_of_not_isAttached w p a _ h]

theorem ask_of_no_module (h : s.cache.isAttached p = true)
    (ha : w.processes.moduleBase? p a = none) :
    k.ask w p a s = (.error (.noModule a), s) := by
  rw [ask_eq, s.ask_of_no_module w p a _ h ha]

theorem ask_of_module (h : s.cache.isAttached p = true)
    (ha : w.processes.moduleBase? p a = some b) :
    ∃ decoded, k.ask w p a s =
      (s.outcome (s.recordAt w p b)
        (k.answer? s.chain ⟨p, a, (s.recordAt w p b).base, s.contentsAt w p b⟩),
       s.asked w p b decoded) := by
  rw [ask_eq]
  exact s.ask_of_module w p a b _ h ha

/-- A question leaves the symbolizer as it is, or as it is after one about some module. -/
theorem ask_snd_cases :
    (k.ask w p a s).2 = s ∨
      ∃ b decoded, s.cache.isAttached p = true ∧ w.processes.moduleBase? p a = some b ∧
        (k.ask w p a s).2 = s.asked w p b decoded := by
  by_cases h : s.cache.isAttached p = true
  · cases ha : w.processes.moduleBase? p a with
    | none =>
      left
      rw [k.ask_of_no_module w p a s h ha]
    | some b =>
      right
      obtain ⟨decoded, hask⟩ := k.ask_of_module w p a b s h ha
      exact ⟨b, decoded, h, rfl, by rw [hask]⟩
  · left
    rw [k.ask_of_not_isAttached w p a s h]

/-- To look up a module before does not change an answer. -/
theorem ask_lookupModule_fst :
    (k.ask w p a (s.lookupModule w p b).2).1 = (k.ask w p a s).1 := by
  obtain hs | ⟨c, hp, -, hs⟩ := s.lookupModule_snd_cases w p b
  · rw [hs]
  · have hp' : (s.moduleLoadedFrom p c (w.processes.modulePath? p c)).2.cache.isAttached p = true :=
      (s.cache.isAttached_load p p c _).trans hp
    rw [hs]
    cases ha : w.processes.moduleBase? p a with
    | none => rw [k.ask_of_no_module w p a _ hp' ha, k.ask_of_no_module w p a s hp ha]
    | some d =>
      obtain ⟨_, hafter⟩ := k.ask_of_module w p a d _ hp' ha
      obtain ⟨_, hbefore⟩ := k.ask_of_module w p a d s hp ha
      have hrecord := s.recordAt_moduleLoadedFrom w p d c hp
      rw [hafter, hbefore, hrecord, LiveSymbolizer.contentsAt, hrecord]
      rfl

end Question

end Postmortem
