import Postmortem.Proofs.Session.Step

/-!
# Keeping does not show

As long as the world stays as it is, a symbolizer answers every question as one that keeps nothing:
one that looks for the module, reads it and decodes it anew each time. What makes this so is that
every record is current, which means that it is what a new one would be, and that what was read of
a module is what would be read of it now.
-/
namespace Postmortem

/-- A symbolizer that keeps nothing of what it reads, only what it was told: its settings, its
sources, and which processes are attached. -/
structure Uncached where
  config : Config
  native : Option NativeSymbolizer
  chain : SourceChain
  attached : ProcessId → Bool := fun _ => false

namespace Uncached

/-- What changes with an operation. Modules that are loaded and unloaded do not matter, and
neither do questions and reports. -/
def perform (u : Uncached) : Operation → Uncached
  | .attach process => { u with attached := fun q => q = process || u.attached q }
  | .detach process => { u with attached := fun q => q ≠ process && u.attached q }
  | .setDemangle demangle => { u with config := { u.config with demangle } }
  | .addSource source => { u with chain := u.chain ++ [source] }
  | .moduleLoaded .. | .moduleUnloaded .. | .lookupModule .. | .ask .. | .resolveInFile ..
  | .report .. => u

def performAll (u : Uncached) (operations : List Operation) : Uncached :=
  operations.foldl perform u

/-- A name as it is shown. -/
def displayName (u : Uncached) (raw : String) : String :=
  if u.config.demangle then
    ((demangle? u.config.demangleStyle raw).or (u.native.bind fun n => n.undecorate? raw)).getD raw
  else raw

/-- The answer to a question: the module is found and read, and then asked. -/
def answer (u : Uncached) (k : Question) (w : World) (process : ProcessId) (address : UInt64) :
    Except LookupError SymbolInfo :=
  if u.attached process then
    match w.processes.moduleBase? process address with
    | none => .error (.noModule address)
    | some base =>
      let path := w.processes.modulePath? process base
      let contents := ModuleImage.build w.files w.processes u.config.images.maxImageSize.toNat
        process base path
      match k.answer? u.chain ⟨process, address, base, contents⟩ with
      | none => .error .notFound
      | some found => .ok {
          name := u.displayName found.symbol.name
          rawName := found.symbol.name
          displacement := found.symbol.displacement
          location := found.line.map fun l => (l.file, l.line)
          moduleBase := base
          modulePath := path
          source := found.source }
  else .error (.unknownProcess process)

end Uncached

/-- A record that is as a new one would be, and so is what was read of its module. -/
structure ModuleRecord.IsCurrent (w : World) (limit : Nat) (p : ProcessId) (b : UInt64)
    (r : ModuleRecord) : Prop where
  base_eq : r.base = b
  path_eq : r.path = w.processes.modulePath? p b
  contents_eq : ∀ m, r.contents = some m →
    m = .build w.files w.processes limit p b (w.processes.modulePath? p b)

/-- What a symbolizer keeps of the module at a base, if anything, is current. -/
def LiveSymbolizer.IsCurrentAt (w : World) (p : ProcessId) (b : UInt64) (s : LiveSymbolizer) :
    Prop :=
  ∀ r, s.cache.record? p b = some r → r.IsCurrent w s.imageLimit p b

/-- A symbolizer whose records are current. -/
def LiveSymbolizer.IsCurrent (w : World) (s : LiveSymbolizer) : Prop :=
  ∀ p b r, s.cache.record? p b = some r → r.IsCurrent w s.imageLimit p b

namespace LiveSymbolizer.IsCurrentAt

variable {w : World} {p : ProcessId} {b : UInt64} {s : LiveSymbolizer} (h : s.IsCurrentAt w p b)

include h

/-- The record that a question uses is current whether or not there is one yet. -/
theorem recordAt : (s.recordAt w p b).IsCurrent w s.imageLimit p b := by
  unfold LiveSymbolizer.recordAt ModuleCache.loaded
  cases hr : s.cache.record? p b with
  | some r => exact h r hr
  | none =>
    refine ⟨rfl, rfl, ?_⟩
    intro m hm
    cases hm

/-- What a question finds in a module is what is in it now. -/
theorem contentsAt_eq :
    s.contentsAt w p b =
      .build w.files w.processes s.imageLimit p b (w.processes.modulePath? p b) := by
  have hr := h.recordAt
  rw [contentsAt, build, hr.base_eq, hr.path_eq]
  cases hm : (s.recordAt w p b).contents with
  | some m => exact hr.contents_eq m hm
  | none => rfl

theorem attach (q : ProcessId) : (s.attach q).IsCurrentAt w p b := by
  intro r hr
  exact h r (by simpa [LiveSymbolizer.attach] using hr)

theorem detach (q : ProcessId) : (s.detach q).2.IsCurrentAt w p b := by
  intro r hr
  exact h r (s.cache.record?_of_record?_detach q p b hr)

theorem unload (q : ProcessId) (a : UInt64) : (s.moduleUnloaded q a).2.IsCurrentAt w p b := by
  intro r hr
  exact h r (s.cache.record?_of_record?_unload q p b a hr)

/-- A module that is loaded with the path it has now gets a current record. -/
theorem load (q : ProcessId) (a : UInt64) : (s.moduleLoaded w q a).2.IsCurrentAt w p b := by
  intro r hr
  change (s.cache.load q a (w.processes.modulePath? q a)).2.record? p b = some r at hr
  by_cases hq : s.cache.isAttached q = true
  · rw [s.cache.record?_load q p b a _ hq] at hr
    split at hr
    · next hpb =>
      obtain ⟨rfl, rfl⟩ := hpb
      rw [← Option.some.inj hr]
      exact h.recordAt
    · exact h r hr
  · rw [s.cache.load_of_not_isAttached q a _ hq] at hr
    exact h r hr

/-- What a question reads is what is there now. -/
theorem asked (hkeyed : s.cache.Keyed) (q : ProcessId) (a : UInt64)
    (decoded : Decoded (s.contentsAt w q a)) (hq : s.cache.isAttached q = true) :
    (s.asked w q a decoded).IsCurrentAt w p b := by
  intro r hr
  rw [s.asked_record? w q p b a decoded hkeyed hq] at hr
  split at hr
  · next hpb =>
    obtain ⟨rfl, rfl⟩ := hpb
    rw [← Option.some.inj hr]
    refine ⟨h.recordAt.base_eq, h.recordAt.path_eq, ?_⟩
    intro m hm
    rw [← Option.some.inj hm]
    exact h.contentsAt_eq
  · exact h r hr

end LiveSymbolizer.IsCurrentAt

namespace LiveSymbolizer.IsCurrent

variable {w : World} {s : LiveSymbolizer} (h : s.IsCurrent w)

include h

theorem isCurrentAt (p : ProcessId) (b : UInt64) : s.IsCurrentAt w p b := h p b

theorem keyed : s.cache.Keyed := fun p b r hr => (h p b r hr).base_eq

theorem attach (p : ProcessId) : (s.attach p).IsCurrent w := fun q a => (h.isCurrentAt q a).attach p

theorem detach (p : ProcessId) : (s.detach p).2.IsCurrent w := fun q a =>
  (h.isCurrentAt q a).detach p

theorem unload (p : ProcessId) (b : UInt64) : (s.moduleUnloaded p b).2.IsCurrent w := fun q a =>
  (h.isCurrentAt q a).unload p b

theorem load (p : ProcessId) (b : UInt64) : (s.moduleLoaded w p b).2.IsCurrent w := fun q a =>
  (h.isCurrentAt q a).load p b

theorem asked (p : ProcessId) (b : UInt64) (decoded : Decoded (s.contentsAt w p b))
    (hp : s.cache.isAttached p = true) : (s.asked w p b decoded).IsCurrent w := fun q a =>
  (h.isCurrentAt q a).asked h.keyed p b decoded hp

end LiveSymbolizer.IsCurrent

namespace Uncached

/-- A symbolizer was told the same as one that keeps nothing, and what it keeps is current. -/
structure Matches (w : World) (u : Uncached) (s : LiveSymbolizer) : Prop where
  config_eq : s.config = u.config
  native_eq : s.native = u.native
  chain_eq : s.chain = u.chain
  attached_eq : ∀ p, s.cache.isAttached p = u.attached p
  current : s.IsCurrent w

variable {w : World} {u : Uncached} {s : LiveSymbolizer}

theorem Matches.load (h : u.Matches w s) (p : ProcessId) (b : UInt64) :
    u.Matches w (s.moduleLoaded w p b).2 where
  config_eq := h.config_eq
  native_eq := h.native_eq
  chain_eq := h.chain_eq
  attached_eq q := by
    rw [← h.attached_eq q]
    exact s.cache.isAttached_load p q b _
  current := h.current.load p b

theorem Matches.asked (h : u.Matches w s) (p : ProcessId) (b : UInt64)
    (decoded : Decoded (s.contentsAt w p b)) (hp : s.cache.isAttached p = true) :
    u.Matches w (s.asked w p b decoded) where
  config_eq := h.config_eq
  native_eq := h.native_eq
  chain_eq := h.chain_eq
  attached_eq q := by
    rw [← h.attached_eq q]
    exact s.asked_isAttached w p q b decoded
  current := h.current.asked p b decoded hp

theorem keptByLookups_matches (w : World) (u : Uncached) : KeptByLookups w (u.Matches w) where
  load _ p b _ h := h.load p b
  asked _ p b decoded hp h := h.asked p b decoded hp

theorem Matches.perform {s : Symbolizer} (h : u.Matches w s.live) (operation : Operation) :
    (u.perform operation).Matches w (s.perform w operation).live := by
  cases operation with
  | attach p =>
    refine ⟨h.config_eq, h.native_eq, h.chain_eq, ?_, h.current.attach p⟩
    intro q
    have ha := s.live.cache.isAttached_attach p q
    rw [h.attached_eq q] at ha
    change (s.live.cache.attach p).isAttached q = (q = p || u.attached q)
    rw [Bool.eq_iff_iff, ha]
    simp
  | detach p =>
    refine ⟨h.config_eq, h.native_eq, h.chain_eq, ?_, h.current.detach p⟩
    intro q
    have hd := s.live.cache.isAttached_detach p q
    rw [h.attached_eq q] at hd
    change (s.live.cache.detach p).2.isAttached q = (q ≠ p && u.attached q)
    rw [Bool.eq_iff_iff, hd]
    simp
  | moduleLoaded p b => exact h.load p b
  | moduleUnloaded p b =>
    refine ⟨h.config_eq, h.native_eq, h.chain_eq, ?_, h.current.unload p b⟩
    intro q
    rw [Uncached.perform, ← h.attached_eq q]
    exact s.live.cache.isAttached_unload p q b
  | lookupModule p a => exact (keptByLookups_matches w u).lookup _ p a h
  | ask k p a => exact (keptByLookups_matches w u).ask k _ p a h
  | resolveInFile path rva => exact h
  | setDemangle demangle =>
    refine ⟨?_, h.native_eq, h.chain_eq, h.attached_eq, h.current⟩
    have hc := h.config_eq
    change { s.live.config with demangle } = { u.config with demangle }
    rw [hc]
  | addSource source =>
    refine ⟨h.config_eq, h.native_eq, ?_, h.attached_eq, h.current⟩
    have hc := h.chain_eq
    change s.live.chain ++ [source] = u.chain ++ [source]
    rw [hc]
  | report config request => exact (keptByLookups_matches w u).report config request _ h

theorem Matches.performAll {s : Symbolizer} (h : u.Matches w s.live)
    (operations : List Operation) :
    (u.performAll operations).Matches w (s.performAll w operations).live := by
  induction operations generalizing u s with
  | nil => exact h
  | cons operation rest ih => exact ih (h.perform operation)

/-- Symbolizers that match give the same answers. -/
theorem Matches.answer_eq (h : u.Matches w s) (k : Question) (p : ProcessId) (a : UInt64) :
    (k.ask w p a s).1 = u.answer k w p a := by
  unfold answer
  rw [← h.attached_eq p]
  by_cases hp : s.cache.isAttached p = true
  · rw [if_pos hp]
    cases ha : w.processes.moduleBase? p a with
    | none => rw [k.ask_of_no_module w p a s hp ha]
    | some b =>
      obtain ⟨decoded, hask⟩ := k.ask_of_module w p a b s hp ha
      have hr := (h.current.isCurrentAt p b).recordAt
      rw [hask]
      dsimp only
      rw [(h.current.isCurrentAt p b).contentsAt_eq, hr.base_eq, ← h.chain_eq,
        LiveSymbolizer.imageLimit,
        h.config_eq]
      cases k.answer? s.chain _ with
      | none => rfl
      | some found =>
        simp only [LiveSymbolizer.outcome, LiveSymbolizer.info, LiveSymbolizer.displayName,
          displayName, hr.base_eq, hr.path_eq, h.config_eq, h.native_eq]
  · rw [if_neg hp, k.ask_of_not_isAttached w p a s hp]

/-- In a world that does not change, whatever a symbolizer was told and asked before, its answer to
a question is that of a symbolizer that keeps nothing. -/
theorem ask_performAll_eq_answer (config : Config) (native : Option NativeSymbolizer)
    (chain : Option SourceChain) (w : World) (operations : List Operation) (k : Question)
    (p : ProcessId) (a : UInt64) :
    let s := (Symbolizer.create config native chain).performAll w operations
    let u : Uncached := { config, native, chain := chain.getD (.standard native) }
    (k.ask w p a s.live).1 = (u.performAll operations).answer k w p a := by
  have hstart : Matches w { config, native, chain := chain.getD (.standard native) }
      (Symbolizer.create config native chain).live := by
    refine ⟨rfl, rfl, rfl, fun _ => rfl, ?_⟩
    intro q b r hr
    cases hr
  exact (hstart.performAll operations).answer_eq k p a

end Uncached

end Postmortem
