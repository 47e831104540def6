import Postmortem.Proofs.Symbolizer.Question

/-!
# What one event does to a symbolizer

A report does to the symbolizer what its lookups and questions do, one after the other. So whatever
a lookup and a question keep is kept by every report; and whatever the few changes of a symbolizer
keep is kept by every event, and hence by every run of a session.
-/
namespace Postmortem

variable {P : LiveSymbolizer → Prop}

namespace Report

theorem moduleName?_snd (w : World) (p : ProcessId) (a : UInt64) (s : LiveSymbolizer) :
    (moduleName? w p a s).2 = (s.lookupModule w p a).2 := by
  unfold moduleName?
  split <;> simp_all

section Induction

variable (w : World) {p : ProcessId}
  (lookup : ∀ s a, P s → P (s.lookupModule w p a).2)
  (resolve : ∀ s a, P s → P (s.resolve w p a).2)

include lookup resolve

theorem frame_induction (config : RenderConfig) (arch : Architecture) (isCaller : Bool)
    (f : StackFrame) (s : LiveSymbolizer) (h : P s) : P (frame w config p arch isCaller f s).2 := by
  have hname : P (moduleName? w p f.pc s).2 := by
    rw [moduleName?_snd]
    exact lookup s f.pc h
  unfold frame
  cases heq : moduleName? w p f.pc s with
  | mk name t =>
    rw [heq] at hname
    cases name with
    | none => exact hname
    | some module => exact resolve t _ hname

theorem frames_induction (config : RenderConfig) (arch : Architecture) (isCaller : Bool)
    (fs : List StackFrame) (s : LiveSymbolizer) (h : P s) :
    P (frames w config p arch isCaller fs s).2 := by
  induction fs generalizing isCaller s with
  | nil => exact h
  | cons f rest ih =>
    have hf := frame_induction w lookup resolve config arch isCaller f s h
    exact ih true _ hf

/-- What lookups and questions about a process keep is kept by a report of it. -/
theorem write_induction (config : RenderConfig) (request : Request) (hp : request.process = p)
    (s : LiveSymbolizer) (h : P s) : P (request.write w config s).2 := by
  subst hp
  cases request with
  | frame p arch isCaller f => exact frame_induction w lookup resolve config arch isCaller f s h
  | stack p arch fs => exact frames_induction w lookup resolve config arch false fs s h
  | crash p context fs =>
    exact frames_induction w lookup resolve config context.architecture false fs s h
  | exception p image arch e =>
    have hname := lookup s e.address h
    rw [← moduleName?_snd] at hname
    exact hname

end Induction

end Report

namespace Operation

/-- Whether an operation looks up or asks about one address. -/
def IsLookup : Operation → Prop
  | lookupModule .. | ask .. => True
  | _ => False

end Operation

/-- A report does what some lookups and questions do that come one after the other. -/
theorem Symbolizer.perform_report (w : World) (s : Symbolizer) (config : RenderConfig)
    (request : Report.Request) :
    ∃ lookups : List Operation, (∀ operation ∈ lookups, operation.IsLookup) ∧
      s.perform w (.report config request) = s.performAll w lookups := by
  -- Each lookup of the report and each of its questions comes after the ones before.
  have hsnoc : ∀ live operation, operation.IsLookup →
      (∃ lookups : List Operation, (∀ operation ∈ lookups, operation.IsLookup) ∧
        { s with live } = s.performAll w lookups) →
      ∃ lookups : List Operation, (∀ operation ∈ lookups, operation.IsLookup) ∧
        Symbolizer.perform w { s with live } operation = s.performAll w lookups := by
    intro live operation hoperation ⟨lookups, hall, hs⟩
    refine ⟨lookups ++ [operation], ?_, ?_⟩
    · intro other hother
      rw [List.mem_append, List.mem_singleton] at hother
      obtain h | rfl := hother
      · exact hall other h
      · exact hoperation
    · rw [hs, performAll, performAll, List.foldl_append]
      rfl
  refine Report.write_induction (P := fun live => ∃ lookups : List Operation,
    (∀ operation ∈ lookups, operation.IsLookup) ∧ { s with live } = s.performAll w lookups)
    w ?_ ?_ config request rfl s.live ⟨[], by simp, rfl⟩
  · intro live a
    exact hsnoc live (.lookupModule request.process a) trivial
  · intro live a
    exact hsnoc live (.ask .symbol request.process a) trivial

/-- What loading the module of an address and asking about it keep. -/
structure KeptByLookups (w : World) (P : LiveSymbolizer → Prop) : Prop where
  load : ∀ s p b, s.cache.isAttached p = true → P s →
    P (s.moduleLoadedFrom p b (w.processes.modulePath? p b)).2
  asked : ∀ s p b decoded, s.cache.isAttached p = true → P s → P (s.asked w p b decoded)

/-- Lookups and questions change the cache alone. -/
theorem keptByLookups_settings {α : Type} (w : World) (settings : LiveSymbolizer → α)
    (h : ∀ s cache, settings { s with cache } = settings s) (a : α) :
    KeptByLookups w fun s => settings s = a where
  load s _ _ _ hs := (h s _).trans hs
  asked s _ _ _ _ hs := (h s _).trans hs

namespace KeptByLookups

variable {w : World} (hP : KeptByLookups w P)

include hP

theorem lookup (s : LiveSymbolizer) (p : ProcessId) (a : UInt64) (h : P s) :
    P (s.lookupModule w p a).2 := by
  obtain hs | ⟨b, hp, _, hs⟩ := s.lookupModule_snd_cases w p a
  · rwa [hs]
  · rw [hs]
    exact hP.load s p b hp h

theorem ask (k : Question) (s : LiveSymbolizer) (p : ProcessId) (a : UInt64) (h : P s) :
    P (k.ask w p a s).2 := by
  obtain hs | ⟨b, decoded, hp, _, hs⟩ := k.ask_snd_cases w p a s
  · rwa [hs]
  · rw [hs]
    exact hP.asked s p b decoded hp h

theorem report (config : RenderConfig) (request : Report.Request) (s : LiveSymbolizer) (h : P s) :
    P (request.write w config s).2 :=
  Report.write_induction w (fun s => hP.lookup s request.process)
    (fun s => hP.ask .symbol s request.process) config request rfl s h

end KeptByLookups

namespace Session

/-- What the changes of a symbolizer keep. -/
structure Kept (P : LiveSymbolizer → Prop) : Prop where
  attach : ∀ s p, P s → P (s.attach p)
  detach : ∀ s p, P s → P (s.detach p).2
  load : ∀ s p b path, P s → P (s.moduleLoadedFrom p b path).2
  unload : ∀ s p b, P s → P (s.moduleUnloaded p b).2
  asked : ∀ s w p b decoded, s.cache.isAttached p = true → P s →
    P (LiveSymbolizer.asked s w p b decoded)
  setDemangle : ∀ s demangle, P s → P (s.setDemangle demangle)
  addSource : ∀ s source, P s → P (s.addSource source)

namespace Kept

variable (hP : Kept P)

include hP

theorem byLookups (w : World) : KeptByLookups w P where
  load s p b _ h := hP.load s p b _ h
  asked s p b decoded hp h := hP.asked s w p b decoded hp h

theorem perform (w : World) (s : Symbolizer) (operation : Operation) (h : P s.live) :
    P (s.perform w operation).live := by
  cases operation with
  | attach p => exact hP.attach _ p h
  | detach p => exact hP.detach _ p h
  | moduleLoaded p b => exact hP.load _ p b _ h
  | moduleUnloaded p b => exact hP.unload _ p b h
  | lookupModule p a => exact (hP.byLookups w).lookup _ p a h
  | ask k p a => exact (hP.byLookups w).ask k _ p a h
  | resolveInFile path rva => exact h
  | setDemangle demangle => exact hP.setDemangle _ demangle h
  | addSource source => exact hP.addSource _ source h
  | report config request => exact (hP.byLookups w).report config request _ h

theorem step (s : Session) (event : Event) (h : P s.symbolizer.live) :
    P (s.step event).symbolizer.live := by
  cases event with
  | operation operation => exact hP.perform s.world s.symbolizer operation h
  | loadedFrom p b path => exact hP.load _ p b path h
  | change world => exact h

theorem run (s : Session) (events : List Event) (h : P s.symbolizer.live) :
    P (s.run events).symbolizer.live := by
  induction events generalizing s with
  | nil => exact h
  | cons event rest ih => exact ih _ (hP.step s event h)

end Kept

/-- In every session records are in the place of their base. -/
theorem kept_keyed : Kept fun s => s.cache.Keyed where
  attach _ _ h := h.attach
  detach _ _ h := h.detach
  load _ _ _ _ h := h.load
  unload _ _ _ h := h.unload
  asked s w p b decoded _ h := s.asked_keyed w p b decoded h
  setDemangle _ _ h := h
  addSource _ _ h := h

end Session

end Postmortem
