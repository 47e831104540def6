import Postmortem.Proofs.Symbolizer.Agreement
import Postmortem.Proofs.Text.Hex

/-!
# Stacks frame by frame

The lines of a frame depend on the frame and on the world, but not on what was looked up for the
frames before it. For as long as all that a symbolizer keeps was made in the world as it is now, it
finds the same as one that keeps nothing. So a stack is its frames one by one, as if each was
written by a symbolizer of its own.
-/
namespace Postmortem

namespace Symbolizer

/-- All that a symbolizer keeps after operations was made in the course of them: of each record
there is a time when there was none in its place. -/
def MadeDuring (w : World) (s : Symbolizer) (operations : List Operation) : Prop :=
  ∀ p b r, (s.performAll w operations).live.cache.record? p b = some r →
    ∃ earlier later, operations = earlier ++ later ∧
      (s.performAll w earlier).live.cache.record? p b = none

section Current

variable {w : World} {p : ProcessId} {b : UInt64}

theorem keptByLookups_isCurrentAt (w : World) (p : ProcessId) (b : UInt64) :
    KeptByLookups w fun s => s.cache.Keyed ∧ s.IsCurrentAt w p b where
  load _ q a _ h := ⟨h.1.load, h.2.load q a⟩
  asked s q a decoded hq h := ⟨s.asked_keyed w q a decoded h.1, h.2.asked h.1 q a decoded hq⟩

theorem isCurrentAt_perform {s : Symbolizer} (hkeyed : s.live.cache.Keyed)
    (h : s.live.IsCurrentAt w p b) (operation : Operation) :
    (s.perform w operation).live.IsCurrentAt w p b := by
  have hkept := keptByLookups_isCurrentAt w p b
  cases operation with
  | attach q => exact h.attach q
  | detach q => exact h.detach q
  | moduleLoaded q a => exact h.load q a
  | moduleUnloaded q a => exact h.unload q a
  | lookupModule q a => exact (hkept.lookup _ q a ⟨hkeyed, h⟩).2
  | ask k q a => exact (hkept.ask k _ q a ⟨hkeyed, h⟩).2
  | resolveInFile path rva => exact h
  | setDemangle demangle => exact h
  | addSource source => exact h
  | report config request => exact (hkept.report config request _ ⟨hkeyed, h⟩).2

theorem isCurrentAt_performAll {s : Symbolizer} (hkeyed : s.live.cache.Keyed)
    (h : s.live.IsCurrentAt w p b) (operations : List Operation) :
    (s.performAll w operations).live.IsCurrentAt w p b := by
  induction operations generalizing s with
  | nil => exact h
  | cons operation rest ih =>
    exact ih (Session.kept_keyed.perform w s operation hkeyed)
      (isCurrentAt_perform hkeyed h operation)

theorem keyed_performAll {s : Symbolizer} (hkeyed : s.live.cache.Keyed)
    (operations : List Operation) : (s.performAll w operations).live.cache.Keyed := by
  induction operations generalizing s with
  | nil => exact hkeyed
  | cons operation rest ih => exact ih (Session.kept_keyed.perform w s operation hkeyed)

/-- What was made in the world as it is now is current. -/
theorem MadeDuring.isCurrent {s : Symbolizer} {operations : List Operation}
    (h : s.MadeDuring w operations) (hkeyed : s.live.cache.Keyed) :
    (s.performAll w operations).live.IsCurrent w := by
  intro p b r hr
  obtain ⟨earlier, later, rfl, hnone⟩ := h p b r hr
  have hthen : (s.performAll w earlier).live.IsCurrentAt w p b := by
    intro old hold
    rw [hnone] at hold
    cases hold
  have hnow := isCurrentAt_performAll (keyed_performAll hkeyed earlier) hthen later
  have happend : (s.performAll w earlier).performAll w later =
      s.performAll w (earlier ++ later) := List.foldl_append.symm
  rw [happend] at hnow
  exact hnow r hr

end Current

end Symbolizer

namespace Report

/-- The name of a module, from the record that is used of it. -/
theorem moduleName?_fst (w : World) (p : ProcessId) (a : UInt64) (s : LiveSymbolizer) :
    (moduleName? w p a s).1 =
      if s.cache.isAttached p then
        (w.processes.moduleBase? p a).bind fun b =>
          (s.recordAt w p b).path.map fun path => ((s.recordAt w p b).base, Path.baseName path)
      else none := by
  unfold moduleName?
  by_cases hp : s.cache.isAttached p = true
  · rw [if_pos hp]
    cases ha : w.processes.moduleBase? p a with
    | none =>
      rw [s.lookupModule_of_no_module w p a hp ha]
      rfl
    | some b =>
      have hfound : (s.moduleLoadedFrom p b (w.processes.modulePath? p b)).1 =
          .ok (s.recordAt w p b) := s.cache.load_fst p b _ hp
      rw [s.lookupModule_of_module w p a b hp ha]
      cases hload : s.moduleLoadedFrom p b (w.processes.modulePath? p b) with
      | mk answer later =>
        rw [hload] at hfound
        dsimp only at hfound
        rw [hfound]
        rfl
  · rw [if_neg hp, s.lookupModule_of_not_isAttached w p a hp]

end Report

namespace LiveSymbolizer

/-- A new symbolizer with the same settings and sources, which was told of one process. -/
def fresh (s : LiveSymbolizer) (p : ProcessId) : LiveSymbolizer :=
  (Symbolizer.create s.config s.native (some s.chain)).live.attach p

/-- A symbolizer has a process attached and the settings and sources of another one, and all that it
keeps is current. -/
structure UpToDate (w : World) (p : ProcessId) (settings s : LiveSymbolizer) : Prop where
  config_eq : s.config = settings.config
  native_eq : s.native = settings.native
  chain_eq : s.chain = settings.chain
  isAttached : s.cache.isAttached p = true
  current : s.IsCurrent w

theorem keptByLookups_upToDate (w : World) (p : ProcessId) (settings : LiveSymbolizer) :
    KeptByLookups w (UpToDate w p settings) where
  load s q b _ h := by
    refine ⟨h.config_eq, h.native_eq, h.chain_eq, ?_, h.current.load q b⟩
    exact (s.cache.isAttached_load q p b _).trans h.isAttached
  asked s q b decoded hq h := by
    refine ⟨h.config_eq, h.native_eq, h.chain_eq, ?_, h.current.asked q b decoded hq⟩
    exact (s.asked_isAttached w q p b decoded).trans h.isAttached

namespace UpToDate

variable {w : World} {p : ProcessId} {settings s t : LiveSymbolizer}

theorem fresh (w : World) (p : ProcessId) (s : LiveSymbolizer) : UpToDate w p s (s.fresh p) where
  config_eq := rfl
  native_eq := rfl
  chain_eq := rfl
  isAttached := (ModuleCache.isAttached_attach {} p p).mpr (.inl rfl)
  current := (isCurrent_of_empty rfl w).attach p

variable (h : UpToDate w p settings s)

include h

theorem answer_eq (k : Question) (a : UInt64) :
    (k.ask w p a s).1 =
      Uncached.answer ⟨settings.config, settings.native, settings.chain, (· = p)⟩ k w p a := by
  have hmatches : Uncached.Matches w ⟨s.config, s.native, s.chain, s.cache.isAttached⟩ s :=
    ⟨rfl, rfl, rfl, fun _ => rfl, h.current⟩
  rw [hmatches.answer_eq k p a, h.config_eq, h.native_eq, h.chain_eq]
  simp only [Uncached.answer, h.isAttached, decide_true]
  rfl

theorem moduleName?_fst (a : UInt64) :
    (Report.moduleName? w p a s).1 =
      (w.processes.moduleBase? p a).bind fun b =>
        (w.processes.modulePath? p b).map fun path => (b, Path.baseName path) := by
  rw [Report.moduleName?_fst, if_pos h.isAttached]
  congr 1
  funext b
  have hr := (h.current.isCurrentAt p b).recordAt
  rw [hr.base_eq, hr.path_eq]

end UpToDate

end LiveSymbolizer

namespace Report

open LiveSymbolizer

/-- How many bytes before its address the symbol of a frame is looked up. -/
def nudge (config : RenderConfig) (isCaller : Bool) : UInt64 :=
  if isCaller && config.nudgeReturnAddresses then 1 else 0

/-- The source line of a symbol, if it is known. -/
def locationText : Option (String × UInt32) → String
  | some (file, line) => "  [" ++ file ++ " @ " ++ toString line.toNat ++ "]"
  | none => ""

/-- What is written of a frame after its addresses, from the module and the symbol that were
found. -/
def frameDetail (w : World) (config : RenderConfig) (pc nudge : UInt64)
    (answer : Except LookupError SymbolInfo) : Option (UInt64 × String) → String
  | none => "\n"
  | some (base, name) =>
    "  " ++ name ++ symbolText base pc nudge answer ++ "\n" ++ frameSource w config answer

section Frame

variable {w : World} {p : ProcessId} {settings s t : LiveSymbolizer}

/-- The addresses of a frame come first. Then comes what is found of its address, and that is found
as if the module had not been looked up before. -/
theorem frame_fst (w : World) (config : RenderConfig) (p : ProcessId) (arch : Architecture)
    (isCaller : Bool) (f : StackFrame) (s : LiveSymbolizer) :
    (frame w config p arch isCaller f s).1 =
      frameAddresses arch f ++
        frameDetail w config f.pc (nudge config isCaller)
          (s.resolve w p (f.pc - nudge config isCaller)).1 (moduleName? w p f.pc s).1 := by
  have hanswer : ((moduleName? w p f.pc s).2.resolve w p (f.pc - nudge config isCaller)).1 =
      (s.resolve w p (f.pc - nudge config isCaller)).1 := by
    rw [moduleName?_snd]
    exact Question.symbol.ask_lookupModule_fst w p _ _ s
  rw [frame, ← hanswer]
  cases moduleName? w p f.pc s with
  | mk found later =>
    cases found with
    | none => rfl
    | some module =>
      dsimp only [frameDetail]
      rw [nudge, String.append_assoc, String.append_assoc, String.append_assoc,
        String.append_assoc, String.append_assoc, String.append_assoc, String.append_assoc]

/-- Symbolizers that are up to date and have the same settings write the same of a frame. -/
theorem frame_eq (hs : UpToDate w p settings s) (ht : UpToDate w p settings t)
    (config : RenderConfig) (arch : Architecture) (isCaller : Bool) (f : StackFrame) :
    (frame w config p arch isCaller f s).1 = (frame w config p arch isCaller f t).1 := by
  have hanswer : (s.resolve w p (f.pc - nudge config isCaller)).1 =
      (t.resolve w p (f.pc - nudge config isCaller)).1 :=
    (hs.answer_eq .symbol _).trans (ht.answer_eq .symbol _).symm
  have hname : (moduleName? w p f.pc s).1 = (moduleName? w p f.pc t).1 :=
    (hs.moduleName?_fst f.pc).trans (ht.moduleName?_fst f.pc).symm
  rw [frame_fst, frame_fst, hanswer, hname]

/-- The frames of a stack are written one by one, when what is written of a frame does not depend on
the lookups before it. -/
theorem frames_fst_of_kept {P : LiveSymbolizer → Prop} (hkept : KeptByLookups w P)
    (config : RenderConfig) (arch : Architecture) {write : Bool → StackFrame → String}
    (hwrite : ∀ s, P s → ∀ isCaller f, (frame w config p arch isCaller f s).1 = write isCaller f)
    (hs : P s) (isCaller : Bool) (fs : List StackFrame) :
    (frames w config p arch isCaller fs s).1 =
      String.join (fs.mapIdx fun i f => write (isCaller || 0 < i) f) := by
  induction fs generalizing isCaller s with
  | nil => rfl
  | cons f rest ih =>
    have hafter : P (frame w config p arch isCaller f s).2 :=
      frame_induction w (fun s => hkept.lookup s p) (fun s => hkept.ask .symbol s p) config arch
        isCaller f s hs
    have hfirst := hwrite s hs isCaller f
    have hrest := ih hafter true
    rw [List.mapIdx_cons, String.join_cons]
    simp only [Nat.lt_irrefl, decide_false, Bool.or_false, Nat.zero_lt_succ, decide_true,
      Bool.or_true, Bool.true_or] at hrest ⊢
    rw [← hfirst, ← hrest]
    rfl

end Frame

section Symbol

variable {w : World} {p : ProcessId} {s : LiveSymbolizer}

/-- What is written of a symbol, up to the distance of the address from where it starts. -/
def symbolStart (module name : String) (displacement : Nat) : String :=
  "  " ++ module ++ "!" ++ name ++ "+0x" ++ Text.hex displacement

/-- What is written of a symbol after that. -/
def symbolRest (w : World) (config : RenderConfig) (info : SymbolInfo) : String :=
  locationText info.location ++ "\n" ++ frameSource w config (.ok info)

theorem frameDetail_of_ok (config : RenderConfig) (base pc nudge : UInt64) (name : String)
    (info : SymbolInfo) :
    frameDetail w config pc nudge (.ok info) (some (base, name)) =
      symbolStart name info.name (info.displacement + nudge).toNat ++ symbolRest w config info := by
  rw [frameDetail, symbolText, symbolStart, symbolRest, Text.hexMarked]
  cases hlocation : info.location with
  | none => simp only [locationText, String.append_assoc]; rfl
  | some location => simp only [locationText, String.append_assoc]; rfl

/-- How a symbolizer writes the frames of a process. -/
structure WritesFrames (w : World) (p : ProcessId) (s : LiveSymbolizer) : Prop where
  /-- A stack is a header, the frames as each is written by a new symbolizer, and an empty line. All
  but the first one are calling frames. -/
  stack_eq : ∀ config arch fs,
    (stack w config p arch fs s).1 =
      stackHeader arch ++
        String.join (fs.mapIdx fun i f => (frame w config p arch (0 < i) f (s.fresh p)).1) ++ "\n"
  crash_eq : ∀ config context fs,
    (crash w config p context fs s).1 =
      registers context ++ (stack w config p context.architecture fs s).1
  /-- A frame begins with its addresses, each with all its digits in upper case. -/
  addresses : ∀ config arch isCaller f, ∃ pc p0 p1 p2 rest,
    (frame w config p arch isCaller f (s.fresh p)).1 =
        pc ++ " " ++ p0 ++ " " ++ p1 ++ " " ++ p2 ++ rest ∧
      Text.WritesHex arch.addressDigits (arch.mask f.pc).toNat pc ∧
      Text.WritesHex arch.addressDigits (arch.mask f.p0).toNat p0 ∧
      Text.WritesHex arch.addressDigits (arch.mask f.p1).toNat p1 ∧
      Text.WritesHex arch.addressDigits (arch.mask f.p2).toNat p2
  /-- The distance that is shown is that of the address which was looked up, and the byte before the
  return address. -/
  symbol : ∀ config arch isCaller f base module info,
    (moduleName? w p f.pc s).1 = some (base, module) →
    (s.resolve w p (f.pc - nudge config isCaller)).1 = .ok info →
    info.displacement.toNat + (nudge config isCaller).toNat < UInt64.size →
    (frame w config p arch isCaller f (s.fresh p)).1 =
      frameAddresses arch f ++
        symbolStart module info.name
          (info.displacement.toNat + (nudge config isCaller).toNat) ++
        symbolRest w config info
  /-- When an address and the one before it belong to the same symbol, a calling frame is written in
  the same way up to the distance, whichever of them is looked up. -/
  nudged : ∀ config arch f base module here before,
    (moduleName? w p f.pc s).1 = some (base, module) →
    (s.resolve w p f.pc).1 = .ok here → (s.resolve w p (f.pc - 1)).1 = .ok before →
    before.name = here.name → f.pc - 1 - before.displacement = f.pc - here.displacement →
    let start := frameAddresses arch f ++ symbolStart module here.name here.displacement.toNat
    (frame w { config with nudgeReturnAddresses := true } p arch true f (s.fresh p)).1 =
        start ++ symbolRest w config before ∧
      (frame w { config with nudgeReturnAddresses := false } p arch true f (s.fresh p)).1 =
        start ++ symbolRest w config here

theorem frameAddresses_eq (arch : Architecture) (f : StackFrame) :
    frameAddresses arch f =
      arch.formatAddress f.pc ++ " " ++ arch.formatAddress f.p0 ++ " " ++
        arch.formatAddress f.p1 ++ " " ++ arch.formatAddress f.p2 := rfl

theorem writesFrames_of_upToDate (h : UpToDate w p s s) : WritesFrames w p s := by
  have hfresh := UpToDate.fresh w p s
  have hframe : ∀ config arch isCaller f,
      (frame w config p arch isCaller f (s.fresh p)).1 =
        frameAddresses arch f ++
          frameDetail w config f.pc (nudge config isCaller)
            (s.resolve w p (f.pc - nudge config isCaller)).1 (moduleName? w p f.pc s).1 := by
    intro config arch isCaller f
    rw [← frame_eq h hfresh, frame_fst]
  refine ⟨?_, ?_, ?_, ?_, ?_⟩
  · intro config arch fs
    have hframes := frames_fst_of_kept (keptByLookups_upToDate w p s) config arch
      (fun t ht isCaller f => frame_eq ht hfresh config arch isCaller f) h false fs
    simp only [Bool.false_or] at hframes
    rw [← hframes]
    rfl
  · intro config context fs
    rfl
  · intro config arch isCaller f
    rw [hframe, frameAddresses_eq]
    exact ⟨_, _, _, _, _, rfl, arch.formatAddress_writes _, arch.formatAddress_writes _,
      arch.formatAddress_writes _, arch.formatAddress_writes _⟩
  · intro config arch isCaller f base module info hmodule hinfo hfits
    rw [hframe, hmodule, hinfo, frameDetail_of_ok, UInt64.toNat_add, Nat.mod_eq_of_lt hfits,
      String.append_assoc]
  · intro config arch f base module here before hmodule hhere hbefore hname hstart
    have hon : nudge { config with nudgeReturnAddresses := true } true = 1 := rfl
    have hoff : nudge { config with nudgeReturnAddresses := false } true = 0 := rfl
    -- Both distances are from the same start, so they differ by the one byte.
    have hdistance : before.displacement + 1 = here.displacement := by
      grind
    constructor
    · rw [hframe, hmodule, hon, hbefore, frameDetail_of_ok, hdistance, hname, String.append_assoc]
      rfl
    · rw [hframe, hmodule, hoff, UInt64.sub_zero, hhere, frameDetail_of_ok, UInt64.add_zero,
        String.append_assoc]
      rfl

end Symbol

end Report

namespace Session

/-- In every session a stack is written frame by frame, each as by a new symbolizer, as long as all
that is kept was made since the world changed last. -/
theorem run_writesFrames (world : World) (config : Config) (native : Option NativeSymbolizer)
    (chain : Option SourceChain) (events : List Event) (operations : List Operation)
    (p : ProcessId) :
    let s := (start world config native chain).run events
    let last := s.symbolizer.performAll s.world operations
    last.live.cache.isAttached p = true → s.symbolizer.MadeDuring s.world operations →
      Report.WritesFrames s.world p last.live := by
  intro s last hattached hmade
  have hkeyed : s.symbolizer.live.cache.Keyed :=
    kept_keyed.run _ events ModuleCache.keyed_empty
  exact Report.writesFrames_of_upToDate
    ⟨rfl, rfl, rfl, hattached, hmade.isCurrent hkeyed⟩

/-- A process is attached and asked about, and is told of another one. -/
theorem loadedTwice_writesFrames :
    let s := (start Symbolizer.loadedTwice {} none none).run []
    let operations : List Operation := [.attach ⟨1⟩, .ask .symbol ⟨1⟩ 0x401014, .attach ⟨2⟩]
    let last := s.symbolizer.performAll s.world operations
    (last.live.cache.isAttached ⟨1⟩ = true ∧ s.symbolizer.MadeDuring s.world operations) ∧
      Report.WritesFrames s.world ⟨1⟩ last.live ∧
      (last.live.resolve s.world ⟨1⟩ 0x401014).1.toOption.map (·.displacement) = some 4 := by
  intro s operations last
  have hattached : last.live.cache.isAttached ⟨1⟩ = true := by decide +kernel
  have hmade : s.symbolizer.MadeDuring s.world operations := by
    intro p b r _
    exact ⟨[], operations, rfl, rfl⟩
  exact ⟨⟨hattached, hmade⟩, run_writesFrames Symbolizer.loadedTwice {} none none [] operations ⟨1⟩
    hattached hmade, by decide +kernel⟩

/-- The return address of the second frame is looked up one byte earlier. -/
example :
    (Report.stack Symbolizer.loadedTwice {} ⟨1⟩ .x86
      [{ pc := 0x401014, p0 := 0xAB }, { pc := 0x401011 }]
      ((Symbolizer.create {} none none).live.attach ⟨1⟩)).1 =
      "AddrPC   Params\n" ++
        "00401014 000000AB 00000000 00000000  a.exe!main+0x4\n" ++
        "00401011 00000000 00000000 00000000  a.exe!main+0x1\n\n" := by
  decide +kernel

end Session

end Postmortem
