import Postmortem.Proofs.Cache.Separation
import Postmortem.Proofs.Session.Step

/-!
# What other processes do not change

Two symbolizers are the same for a process when they have the same settings and sources and keep the
same of that process. Whatever is asked about the process, and whatever report is written of it,
both give the same, as long as they are in worlds with the same files in which the process has the
same modules and memory. What is asked about other processes does not show.
-/
namespace Postmortem

/-- Whether two worlds are the same for a process. -/
structure World.SameFor (p : ProcessId) (w v : World) : Prop where
  files_eq : w.files = v.files
  layout_eq : w.processes.layout p = v.processes.layout p

namespace LiveSymbolizer

/-- Whether two symbolizers are the same for a process. -/
structure SameFor (p : ProcessId) (s t : LiveSymbolizer) : Prop where
  config_eq : s.config = t.config
  native_eq : s.native = t.native
  chain_eq : s.chain = t.chain
  cache : s.cache.SameFor p t.cache

/-- Whether two results are equal, and the symbolizers that are left are the same for a process. -/
structure Alike {α : Type} (p : ProcessId) (x y : α × LiveSymbolizer) : Prop where
  fst_eq : x.1 = y.1
  snd : x.2.SameFor p y.2

theorem Alike.exists {α : Type} {p : ProcessId} {x y : α × LiveSymbolizer} (h : Alike p x y) :
    ∃ a s t, x = (a, s) ∧ y = (a, t) ∧ s.SameFor p t :=
  ⟨x.1, x.2, y.2, rfl, Prod.ext h.fst_eq.symm rfl, h.snd⟩

namespace SameFor

theorem refl (p : ProcessId) (s : LiveSymbolizer) : s.SameFor p s := ⟨rfl, rfl, rfl, rfl⟩

variable {s t : LiveSymbolizer} {p q : ProcessId}

section Same

variable (h : s.SameFor p t)

include h

/-- What changes in the caches alone. -/
theorem withCache {α : Type} {x y : α × ModuleCache} (hx : x.1 = y.1 ∧ x.2.SameFor p y.2) :
    Alike p (x.1, { s with cache := x.2 }) (y.1, { t with cache := y.2 }) :=
  ⟨hx.1, h.config_eq, h.native_eq, h.chain_eq, hx.2⟩

theorem setDemangle (demangle : Bool) :
    (s.setDemangle demangle).SameFor p (t.setDemangle demangle) where
  config_eq := by rw [LiveSymbolizer.setDemangle, LiveSymbolizer.setDemangle, h.config_eq]
  native_eq := h.native_eq
  chain_eq := h.chain_eq
  cache := h.cache

theorem addSource (source : SymbolSource) :
    (s.addSource source).SameFor p (t.addSource source) where
  config_eq := h.config_eq
  native_eq := h.native_eq
  chain_eq := by rw [LiveSymbolizer.addSource, LiveSymbolizer.addSource, h.chain_eq]
  cache := h.cache

theorem attach : (s.attach p).SameFor p (t.attach p) :=
  ⟨h.config_eq, h.native_eq, h.chain_eq, h.cache.attach⟩

theorem detach : Alike p (s.detach p) (t.detach p) := h.withCache h.cache.detach

theorem moduleLoadedFrom (b : UInt64) (path : Option String) :
    Alike p (s.moduleLoadedFrom p b path) (t.moduleLoadedFrom p b path) :=
  h.withCache (h.cache.load b path)

theorem moduleUnloaded (b : UInt64) : Alike p (s.moduleUnloaded p b) (t.moduleUnloaded p b) :=
  h.withCache (h.cache.unload b)

/-- What is known of an address depends on settings alone. -/
theorem outcome_eq (r : ModuleRecord) (found : Option ChainAnswer) :
    s.outcome r found = t.outcome r found := by
  cases found with
  | none => rfl
  | some found =>
    simp only [outcome, info, displayName, h.config_eq, h.native_eq]

theorem remember (r : ModuleRecord) (m : ReadModule) :
    (s.remember p r m).SameFor p (t.remember p r m) :=
  ⟨h.config_eq, h.native_eq, h.chain_eq, h.cache.keep _⟩

variable {w v : World} (hw : w.SameFor p v)

include hw

theorem moduleLoaded (b : UInt64) : Alike p (s.moduleLoaded w p b) (t.moduleLoaded v p b) := by
  unfold LiveSymbolizer.moduleLoaded
  rw [ProcessMap.modulePath?_congr hw.layout_eq]
  exact h.moduleLoadedFrom b _

theorem lookupModule (a : UInt64) : Alike p (s.lookupModule w p a) (t.lookupModule v p a) :=
  h.withCache (h.cache.lookup hw.layout_eq a)

theorem lookupContents (a : UInt64) :
    Alike p (s.lookupContents w p a) (t.lookupContents v p a) := by
  obtain ⟨found, s', t', hs, ht, hleft⟩ := (h.lookupModule hw a).exists
  rw [LiveSymbolizer.lookupContents, LiveSymbolizer.lookupContents, hs, ht]
  cases found with
  | error e => exact ⟨rfl, hleft⟩
  | ok record =>
    have hread := hleft.cache.read hw.layout_eq v.files t'.imageLimit record
    have hlimit : s'.imageLimit = t'.imageLimit := by
      rw [imageLimit, imageLimit, hleft.config_eq]
    dsimp only
    rw [hw.files_eq, hlimit]
    exact ⟨congrArg (fun m => Except.ok (record, m)) hread.1, (hleft.withCache hread).snd⟩

theorem ask {answer : SymbolQuery → Option ChainAnswer}
    (find : (q : SymbolQuery) → Recall (Decoded q.contents) (answer q)) (a : UInt64) :
    Alike p (s.ask w p a find) (t.ask v p a find) := by
  obtain ⟨found, s', t', hs, ht, hleft⟩ := (h.lookupContents hw a).exists
  rw [LiveSymbolizer.ask, LiveSymbolizer.ask, hs, ht]
  cases found with
  | error e => exact ⟨rfl, hleft⟩
  | ok found => exact ⟨hleft.outcome_eq _ _, hleft.remember _ _⟩

theorem question (k : Question) (a : UInt64) : Alike p (k.ask w p a s) (k.ask v p a t) := by
  rw [k.ask_eq, k.ask_eq, h.chain_eq]
  exact h.ask hw _ a

end Same

theorem of_cache (h : s.SameFor p t) {c : ModuleCache} (hc : c.SameFor p s.cache) :
    ({ s with cache := c } : LiveSymbolizer).SameFor p t :=
  ⟨h.config_eq, h.native_eq, h.chain_eq, Eq.trans hc h.cache⟩

/-! What is told or asked about another process. -/

section Other

variable (hpq : p ≠ q) (h : s.SameFor p t)

include hpq h

theorem of_attach : (s.attach q).SameFor p t := h.of_cache (.of_attach hpq)

theorem of_detach : (s.detach q).2.SameFor p t := h.of_cache (.of_detach hpq)

theorem of_moduleLoadedFrom (b : UInt64) (path : Option String) :
    (s.moduleLoadedFrom q b path).2.SameFor p t := h.of_cache (.of_load hpq b path)

theorem of_moduleUnloaded (b : UInt64) : (s.moduleUnloaded q b).2.SameFor p t :=
  h.of_cache (.of_unload hpq b)

theorem of_lookupModule (w : World) (a : UInt64) : (s.lookupModule w q a).2.SameFor p t := by
  obtain hs | ⟨b, _, _, hs⟩ := s.lookupModule_snd_cases w q a
  · rwa [hs]
  · rw [hs]
    exact h.of_moduleLoadedFrom hpq b _

theorem of_question (k : Question) (w : World) (a : UInt64) :
    (k.ask w q a s).2.SameFor p t := by
  obtain hs | ⟨b, decoded, _, _, hs⟩ := k.ask_snd_cases w q a s
  · rwa [hs]
  · rw [hs]
    exact h.of_cache (.of_keep hpq _)

end Other

end SameFor

end LiveSymbolizer

namespace Report

open LiveSymbolizer

variable {w v : World} {s t : LiveSymbolizer} {p : ProcessId}

section Same

variable (hw : w.SameFor p v) (h : s.SameFor p t)

include hw h

theorem moduleName?_alike (a : UInt64) : Alike p (moduleName? w p a s) (moduleName? v p a t) := by
  obtain ⟨found, s', t', hs, ht, hleft⟩ := (h.lookupModule hw a).exists
  rw [moduleName?, moduleName?, hs, ht]
  cases found with
  | error e => exact ⟨rfl, hleft⟩
  | ok record => exact ⟨rfl, hleft⟩

theorem frame_alike (config : RenderConfig) (arch : Architecture) (isCaller : Bool)
    (f : StackFrame) :
    Alike p (frame w config p arch isCaller f s) (frame v config p arch isCaller f t) := by
  obtain ⟨name, s', t', hs, ht, hleft⟩ := (moduleName?_alike hw h f.pc).exists
  rw [frame, frame, hs, ht]
  cases name with
  | none => exact ⟨rfl, hleft⟩
  | some module =>
    have hanswer := hleft.question hw .symbol
      (f.pc - if isCaller && config.nudgeReturnAddresses then 1 else 0)
    obtain ⟨answer, s'', t'', hs'', ht'', hafter⟩ := hanswer.exists
    dsimp only [Question.ask] at hs'' ht''
    dsimp only
    rw [hs'', ht'']
    refine ⟨?_, hafter⟩
    -- Source lines come from the files, which are the same.
    simp only [frameSource, hw.files_eq]

theorem frames_alike (config : RenderConfig) (arch : Architecture) (isCaller : Bool)
    (fs : List StackFrame) :
    Alike p (frames w config p arch isCaller fs s) (frames v config p arch isCaller fs t) := by
  induction fs generalizing isCaller s t with
  | nil => exact ⟨rfl, h⟩
  | cons f rest ih =>
    obtain ⟨first, s', t', hs, ht, hleft⟩ := (frame_alike hw h config arch isCaller f).exists
    obtain ⟨others, s'', t'', hs'', ht'', hafter⟩ := (ih hleft true).exists
    rw [frames, frames, hs, ht]
    dsimp only
    rw [hs'', ht'']
    exact ⟨rfl, hafter⟩

theorem stack_alike (config : RenderConfig) (arch : Architecture) (fs : List StackFrame) :
    Alike p (stack w config p arch fs s) (stack v config p arch fs t) := by
  obtain ⟨text, s', t', hs, ht, hleft⟩ := (frames_alike hw h config arch false fs).exists
  rw [stack, stack, hs, ht]
  exact ⟨rfl, hleft⟩

theorem write_alike (config : RenderConfig) (request : Request) (hp : request.process = p) :
    Alike p (request.write w config s) (request.write v config t) := by
  subst hp
  cases request with
  | frame p arch isCaller f => exact frame_alike hw h config arch isCaller f
  | stack p arch fs => exact stack_alike hw h config arch fs
  | crash p context fs =>
    obtain ⟨text, s', t', hs, ht, hleft⟩ := (stack_alike hw h config context.architecture fs).exists
    dsimp only [Request.write, Request.process] at hs ht ⊢
    rw [crash, crash, hs, ht]
    exact ⟨rfl, hleft⟩
  | exception p image arch e =>
    obtain ⟨name, s', t', hs, ht, hleft⟩ := (moduleName?_alike hw h e.address).exists
    dsimp only [Request.write, Request.process] at hs ht ⊢
    rw [exception, exception, hs, ht]
    exact ⟨rfl, hleft⟩

end Same

/-- A report of another process. -/
theorem write_other (h : s.SameFor p t) (w : World) (config : RenderConfig) (request : Request)
    (hp : p ≠ request.process) : (request.write w config s).2.SameFor p t :=
  write_induction w (P := (·.SameFor p t)) (fun _ a hs => hs.of_lookupModule hp w a)
    (fun _ a hs => hs.of_question hp .symbol w a) config request rfl s h

end Report

end Postmortem
