import Postmortem.Proofs.Symbol.Chain
import Postmortem.Proofs.Symbolizer.Question

/-!
# How a lookup fails

There are three ways to fail, whatever is in the files, in the memory and in the sources: the
process is not attached, no module holds the address, or no source knows a name. A broken image or
broken debug information only makes that there is no name. The first two failures are found before
anything is made or read, so they leave no trace.
-/
namespace Postmortem

/-- Whether a failure is found before anything is made or read. -/
def LookupError.IsEarly : LookupError → Prop
  | unknownProcess _ | noModule _ => True
  | _ => False

namespace LiveSymbolizer

variable (s : LiveSymbolizer) (w : World) (p : ProcessId) (a b : UInt64)

/-- What the sources are asked about an address in the module at a base. -/
def queryAt : SymbolQuery := ⟨p, a, (s.recordAt w p b).base, s.contentsAt w p b⟩

theorem outcome_eq_error_iff (r : ModuleRecord) (found : Option ChainAnswer) (e : LookupError) :
    s.outcome r found = .error e ↔ found = none ∧ e = .notFound := by
  cases found with
  | none => simp [outcome, eq_comm]
  | some found => simp [outcome]

theorem outcome_eq_ok_iff (r : ModuleRecord) (found : Option ChainAnswer) :
    (∃ info, s.outcome r found = .ok info) ↔ found ≠ none := by
  cases found with
  | none => simp [outcome]
  | some found => simp [outcome]

end LiveSymbolizer

namespace Question

/-- A question that fails early changes nothing. -/
theorem ask_snd_of_early (k : Question) (w : World) (p : ProcessId) (a : UInt64)
    (s : LiveSymbolizer) (e : LookupError) (h : (k.ask w p a s).1 = .error e) (he : e.IsEarly) :
    (k.ask w p a s).2 = s := by
  obtain hs | ⟨b, decoded, hp, ha, _⟩ := k.ask_snd_cases w p a s
  · exact hs
  · obtain ⟨decoded, hask⟩ := k.ask_of_module w p a b s hp ha
    rw [hask] at h
    rw [((s.outcome_eq_error_iff _ _ e).mp h).2] at he
    exact he.elim

end Question

namespace LiveSymbolizer

variable (s : LiveSymbolizer) (w : World) (p : ProcessId) (a b : UInt64)

theorem moduleLoadedFrom_snd_of_error (path : Option String) (e : LookupError)
    (h : (s.moduleLoadedFrom p b path).1 = .error e) : (s.moduleLoadedFrom p b path).2 = s := by
  by_cases hp : s.cache.isAttached p = true
  · have hok := s.cache.load_fst p b path hp
    change (s.cache.load p b path).1 = .error e at h
    rw [hok] at h
    cases h
  · rw [moduleLoadedFrom, s.cache.load_of_not_isAttached p b path hp]

theorem lookupModule_snd_of_error (e : LookupError) (h : (s.lookupModule w p a).1 = .error e) :
    (s.lookupModule w p a).2 = s := by
  obtain hs | ⟨b, hp, ha, hs⟩ := s.lookupModule_snd_cases w p a
  · exact hs
  · rw [s.lookupModule_of_module w p a b hp ha] at h ⊢
    exact s.moduleLoadedFrom_snd_of_error p b _ e h

theorem detach_snd_of_false (h : (s.detach p).1 = false) : (s.detach p).2 = s := by
  have hp : ¬ s.cache.isAttached p = true := by
    rw [← s.cache.detach_fst p]
    exact ne_true_of_eq_false h
  rw [detach, ModuleCache.detach, if_neg hp]

theorem moduleUnloaded_snd_of_false (h : (s.moduleUnloaded p b).1 = false) :
    (s.moduleUnloaded p b).2 = s := by
  have hn : s.cache.record? p b = none := by
    rw [← Option.not_isSome_iff_eq_none, ← s.cache.unload_fst p b]
    exact ne_true_of_eq_false h
  change { s with cache := (s.cache.unload p b).2 } = s
  rw [s.cache.unload_snd_of_no_record p b hn]

/-- The three ways an address is answered: the process is not attached, or there is no module, or
the sources are asked. -/
theorem resolve_cases :
    (¬ s.cache.isAttached p = true ∧ (s.resolve w p a).1 = .error (.unknownProcess p)) ∨
    (s.cache.isAttached p = true ∧ w.processes.moduleBase? p a = none ∧
      (s.resolve w p a).1 = .error (.noModule a)) ∨
    ∃ b, s.cache.isAttached p = true ∧ w.processes.moduleBase? p a = some b ∧
      (s.resolve w p a).1 =
        s.outcome (s.recordAt w p b) (s.chain.resolve? (s.queryAt w p a b)) := by
  by_cases hp : s.cache.isAttached p = true
  · right
    cases ha : w.processes.moduleBase? p a with
    | none =>
      left
      have hask := Question.symbol.ask_of_no_module w p a s hp ha
      exact ⟨hp, rfl, congrArg Prod.fst hask⟩
    | some b =>
      right
      obtain ⟨decoded, hask⟩ := Question.symbol.ask_of_module w p a b s hp ha
      exact ⟨b, hp, rfl, congrArg Prod.fst hask⟩
  · left
    have hask := Question.symbol.ask_of_not_isAttached w p a s hp
    exact ⟨hp, congrArg Prod.fst hask⟩

end LiveSymbolizer

namespace Symbolizer

/-- How the lookups of a symbolizer fail. -/
structure FailsCleanly (s : Symbolizer) (w : World) : Prop where
  unknownProcess_iff : ∀ p a, (s.live.resolve w p a).1 = .error (.unknownProcess p) ↔
    ¬ s.live.cache.isAttached p = true
  noModule_iff : ∀ p a, (s.live.resolve w p a).1 = .error (.noModule a) ↔
    s.live.cache.isAttached p = true ∧ w.processes.moduleBase? p a = none
  notFound_iff : ∀ p a, (s.live.resolve w p a).1 = .error .notFound ↔
    s.live.cache.isAttached p = true ∧ ∃ b, w.processes.moduleBase? p a = some b ∧
      ∀ source ∈ s.live.chain, ¬ source.Names (s.live.queryAt w p a b)
  ok_iff : ∀ p a, (∃ info, (s.live.resolve w p a).1 = .ok info) ↔
    s.live.cache.isAttached p = true ∧ ∃ b, w.processes.moduleBase? p a = some b ∧
      ∃ source ∈ s.live.chain, source.Names (s.live.queryAt w p a b)
  /-- There are no other failures. -/
  error_cases : ∀ p a e, (s.live.resolve w p a).1 = .error e →
    e = .unknownProcess p ∨ e = .noModule a ∨ e = .notFound
  /-- What fails early leaves the whole symbolizer as it was. -/
  ask_unchanged : ∀ (k : Question) p a e, (s.onLive (k.ask w p a)).1 = .error e → e.IsEarly →
    (s.onLive (k.ask w p a)).2 = s
  lookupModule_unchanged : ∀ p a e, (s.onLive (·.lookupModule w p a)).1 = .error e →
    (s.onLive (·.lookupModule w p a)).2 = s
  moduleLoaded_unchanged : ∀ p b e, (s.onLive (·.moduleLoaded w p b)).1 = .error e →
    (s.onLive (·.moduleLoaded w p b)).2 = s
  detach_unchanged : ∀ p, (s.onLive (·.detach p)).1 = false → (s.onLive (·.detach p)).2 = s
  moduleUnloaded_unchanged : ∀ p b, (s.onLive (·.moduleUnloaded p b)).1 = false →
    (s.onLive (·.moduleUnloaded p b)).2 = s

/-- What leaves the part for processes as it was leaves all as it was. -/
theorem onLive_snd_of_unchanged {α : Type} (s : Symbolizer)
    (f : LiveSymbolizer → α × LiveSymbolizer) (h : (f s.live).2 = s.live) : (s.onLive f).2 = s := by
  change { s with live := (f s.live).2 } = s
  rw [h]

/-- In every state and every world, whatever the files, the memory and the sources are, lookups
fail in three ways, each for its own reason, and what fails early leaves no trace. -/
theorem failsCleanly (s : Symbolizer) (w : World) : s.FailsCleanly w := by
  refine ⟨?_, ?_, ?_, ?_, ?_, ?_, ?_, ?_, ?_, ?_⟩
  · intro p a
    obtain ⟨hp, hr⟩ | ⟨hp, ha, hr⟩ | ⟨b, hp, ha, hr⟩ := s.live.resolve_cases w p a
    · simp [hr, hp]
    · simp [hr, hp]
    · simp [hr, hp, LiveSymbolizer.outcome_eq_error_iff]
  · intro p a
    obtain ⟨hp, hr⟩ | ⟨hp, ha, hr⟩ | ⟨b, hp, ha, hr⟩ := s.live.resolve_cases w p a
    · simp [hr, hp]
    · simp [hr, hp, ha]
    · simp [hr, hp, ha, LiveSymbolizer.outcome_eq_error_iff]
  · intro p a
    obtain ⟨hp, hr⟩ | ⟨hp, ha, hr⟩ | ⟨b, hp, ha, hr⟩ := s.live.resolve_cases w p a
    · simp [hr, hp]
    · simp [hr, hp, ha]
    · simp [hr, hp, ha, LiveSymbolizer.outcome_eq_error_iff, SourceChain.resolve?_eq_none_iff]
  · intro p a
    obtain ⟨hp, hr⟩ | ⟨hp, ha, hr⟩ | ⟨b, hp, ha, hr⟩ := s.live.resolve_cases w p a
    · simp [hr, hp]
    · simp [hr, hp, ha]
    · rw [hr, LiveSymbolizer.outcome_eq_ok_iff, ne_eq, SourceChain.resolve?_eq_none_iff]
      simp [hp, ha]
  · intro p a e he
    obtain ⟨hp, hr⟩ | ⟨hp, ha, hr⟩ | ⟨b, hp, ha, hr⟩ := s.live.resolve_cases w p a
    · left
      exact (Except.error.inj (hr.symm.trans he)).symm
    · right; left
      exact (Except.error.inj (hr.symm.trans he)).symm
    · right; right
      exact ((s.live.outcome_eq_error_iff _ _ e).mp (hr.symm.trans he)).2
  · intro k p a e h he
    exact s.onLive_snd_of_unchanged _ (k.ask_snd_of_early w p a s.live e h he)
  · intro p a e h
    exact s.onLive_snd_of_unchanged _ (s.live.lookupModule_snd_of_error w p a e h)
  · intro p b e h
    exact s.onLive_snd_of_unchanged _ (s.live.moduleLoadedFrom_snd_of_error p b _ e h)
  · intro p h
    exact s.onLive_snd_of_unchanged _ (s.live.detach_snd_of_false p h)
  · intro p b h
    exact s.onLive_snd_of_unchanged _ (s.live.moduleUnloaded_snd_of_false p b h)

end Symbolizer

end Postmortem
