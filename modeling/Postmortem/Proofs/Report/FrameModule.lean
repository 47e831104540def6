import Postmortem.Proofs.Process.Regions
import Postmortem.Proofs.Report.Stack
import Postmortem.Proofs.Symbol.Start
import Postmortem.Proofs.Symbolizer.Failure

/-!
# The module and the symbol of a frame

The module that a frame shows is that of its address, while the symbol of a calling frame is looked
up one byte earlier. Both are of one module unless the address is the first one of its module: then
the byte before belongs to another module, and the frame shows its symbol as if it were a symbol of
this one.
-/
namespace Postmortem

namespace ProcessMap

variable {m : ProcessMap} {p : ProcessId} {a b : UInt64}

theorem sub_one_spec (h : b < a) : a - 1 < a ∧ b ≤ a - 1 ∧ a - 1 - b < a - b := by
  rw [UInt64.lt_iff_toNat_lt] at h
  have hone : (a - 1).toNat = a.toNat - 1 :=
    UInt64.toNat_sub_of_le _ _ (UInt64.le_iff_toNat_le.mpr (by rw [UInt64.toNat_one]; omega))
  have hle : b ≤ a - 1 := UInt64.le_iff_toNat_le.mpr (by omega)
  refine ⟨UInt64.lt_iff_toNat_lt.mpr (by omega), hle, UInt64.lt_iff_toNat_lt.mpr ?_⟩
  rw [UInt64.toNat_sub_of_le _ _ hle, hone,
    UInt64.toNat_sub_of_le _ _ (UInt64.le_iff_toNat_le.mpr (Nat.le_of_lt h))]
  omega

/-- Inside of a module, the byte before an address is in the module as well. -/
theorem moduleBase?_sub_one (h : m.moduleBase? p a = some b) (hne : a ≠ b) :
    m.moduleBase? p (a - 1) = some b := by
  obtain ⟨loaded, hat, hlt⟩ := moduleBase?_eq_some_iff_atOrBefore?.mp h
  obtain ⟨hget, hle, hlatest⟩ := Table.atOrBefore?_eq_some_iff.mp hat
  obtain ⟨hbelow, hle', hoffset⟩ := sub_one_spec (UInt64.lt_of_le_of_ne hle hne.symm)
  refine moduleBase?_eq_some_iff_atOrBefore?.mpr ⟨loaded, ?_, UInt64.lt_trans hoffset hlt⟩
  -- No module begins in between, as that one would be nearer to the address as well.
  refine Table.atOrBefore?_eq_some_iff.mpr ⟨hget, hle', fun other found hother hbefore => ?_⟩
  exact hlatest other found hother (UInt64.le_trans hbefore (UInt64.le_of_lt hbelow))

/-- The byte before a module is not in it, not even at the other end of the address space. -/
theorem moduleBase?_sub_one_ne (m : ProcessMap) (p : ProcessId) (b : UInt64) :
    m.moduleBase? p (b - 1) ≠ some b := by
  intro h
  obtain ⟨loaded, hat, hlt⟩ := moduleBase?_eq_some_iff_atOrBefore?.mp h
  have hle := (Table.mem_of_atOrBefore? hat).2
  by_cases hb : b = 0
  · -- The byte before the first address is the last one, which no size reaches from there.
    subst hb
    have hsize := loaded.size.toNat_lt
    rw [UInt64.lt_iff_toNat_lt] at hlt
    have hlast : (0 - 1 - 0 : UInt64).toNat = 2 ^ 64 - 1 := rfl
    omega
  · have hpos : 0 < b := UInt64.pos_iff_ne_zero.mpr hb
    exact absurd (UInt64.lt_of_lt_of_le (sub_one_spec hpos).1 hle) (UInt64.lt_irrefl _)

end ProcessMap

namespace Report

open LiveSymbolizer

theorem nudge_cases (config : RenderConfig) (isCaller : Bool) :
    nudge config isCaller = 0 ∨ nudge config isCaller = 1 := by
  unfold nudge
  split
  · exact .inr rfl
  · exact .inl rfl

/-- What is true of a frame that shows a symbol, with the module that was found of its address and
the symbol that was found. -/
structure ShowsSymbol (w : World) (p : ProcessId) (s : LiveSymbolizer) (config : RenderConfig)
    (arch : Architecture) (isCaller : Bool) (f : StackFrame) (base : UInt64) (module : String)
    (info : SymbolInfo) : Prop where
  text : (frame w config p arch isCaller f s).1 =
    frameAddresses arch f ++
      symbolStart module info.name (info.displacement + nudge config isCaller).toNat ++
      symbolRest w config info
  /-- The symbol is that of a source. The distance that is shown leads to the address from a start,
  and where the source reads an image, it is the start of a function of the image in which the
  symbol was looked up. -/
  start : ∃ source ∈ s.chain, source.label = info.source ∧
    ∃ start, start + (info.displacement + nudge config isCaller) = f.pc ∧
      (source ∈ SymbolSource.readingImages →
        source.KnowsFunction (s.queryAt w p (f.pc - nudge config isCaller) info.moduleBase)
          info.rawName start)
  /-- The symbol is of the module that is shown unless a calling frame has its first address. -/
  sameModule_iff : info.moduleBase = base ↔ ¬ (nudge config isCaller = 1 ∧ f.pc = base)
  /-- If it is, the module is shown by the name of the file that the symbol is from. -/
  modulePath : info.moduleBase = base → info.modulePath.map Path.baseName = some module

section Found

variable {w : World} {p : ProcessId} {s : LiveSymbolizer} {a base : UInt64} {module : String}
  {info : SymbolInfo}

/-- Where the name of a module comes from. -/
theorem exists_record_of_moduleName? (h : (moduleName? w p a s).1 = some (base, module)) :
    ∃ b, w.processes.moduleBase? p a = some b ∧ base = (s.recordAt w p b).base ∧
      (s.recordAt w p b).path.map Path.baseName = some module := by
  rw [moduleName?_fst] at h
  by_cases hp : s.cache.isAttached p = true
  · rw [if_pos hp] at h
    obtain ⟨b, hb, hname⟩ := Option.bind_eq_some_iff.mp h
    obtain ⟨path, hpath, hpair⟩ := Option.map_eq_some_iff.mp hname
    cases hpair
    exact ⟨b, hb, rfl, by rw [hpath, Option.map_some]⟩
  · rw [if_neg hp] at h
    cases h

/-- Where a symbol comes from. -/
theorem exists_answer_of_resolve (h : (s.resolve w p a).1 = .ok info) :
    ∃ b answer, w.processes.moduleBase? p a = some b ∧
      s.chain.resolve? (s.queryAt w p a b) = some answer ∧
      info = s.info (s.recordAt w p b) answer := by
  obtain ⟨-, hanswer⟩ | ⟨-, -, hanswer⟩ | ⟨b, -, ha, hanswer⟩ := s.resolve_cases w p a
  · cases hanswer.symm.trans h
  · cases hanswer.symm.trans h
  · rw [h] at hanswer
    cases hfound : s.chain.resolve? (s.queryAt w p a b) with
    | none =>
      rw [hfound] at hanswer
      cases hanswer
    | some answer =>
      rw [hfound] at hanswer
      exact ⟨b, answer, ha, hfound, Except.ok.inj hanswer⟩

theorem showsSymbol (hkeyed : s.cache.Keyed) (config : RenderConfig) (arch : Architecture)
    (isCaller : Bool) {f : StackFrame} (hmodule : (moduleName? w p f.pc s).1 = some (base, module))
    (hinfo : (s.resolve w p (f.pc - nudge config isCaller)).1 = .ok info) :
    ShowsSymbol w p s config arch isCaller f base module info := by
  obtain ⟨b, hb, hbase, hpath⟩ := exists_record_of_moduleName? hmodule
  obtain ⟨b', answer, hb', hanswer, rfl⟩ := exists_answer_of_resolve hinfo
  rw [s.recordAt_base w p b hkeyed] at hbase
  obtain rfl := hbase
  have hinfoBase : (s.info (s.recordAt w p b') answer).moduleBase = b' :=
    s.recordAt_base w p b' hkeyed
  refine ⟨?_, ?_, ?_, ?_⟩
  · rw [frame_fst, hmodule, hinfo, frameDetail_of_ok, String.append_assoc]
  · obtain ⟨hname, -⟩ := (SourceChain.resolve?_eq_some_iff _ _ answer).mp hanswer
    obtain ⟨source, ⟨before, after, hchain, hsymbol, -⟩, hlabel⟩ :=
      (SourceChain.name?_eq_some_iff _ _ _ _).mp hname
    have hreaches : f.pc - nudge config isCaller - answer.symbol.displacement +
        (answer.symbol.displacement + nudge config isCaller) = f.pc := by
      rw [← UInt64.add_assoc, UInt64.sub_add_cancel, UInt64.sub_add_cancel]
    refine ⟨source, by rw [hchain]; simp, hlabel.symm, _, hreaches, fun hreads => ?_⟩
    rw [hinfoBase]
    exact SymbolSource.knowsFunction_of_symbol hreads hsymbol
  · rw [hinfoBase]
    obtain hnudge | hnudge := nudge_cases config isCaller
    · rw [hnudge, UInt64.sub_zero, hb] at hb'
      rw [hnudge]
      exact ⟨fun _ h => absurd h.1 (by decide), fun _ => (Option.some.inj hb').symm⟩
    · rw [hnudge] at hb' ⊢
      constructor
      · rintro rfl ⟨-, hfirst⟩
        exact ProcessMap.moduleBase?_sub_one_ne _ _ _ (hfirst ▸ hb')
      · intro hinside
        have hne : f.pc ≠ base := fun heq => hinside ⟨rfl, heq⟩
        exact Option.some.inj (hb'.symm.trans (ProcessMap.moduleBase?_sub_one hb hne))
  · rw [hinfoBase]
    rintro rfl
    exact hpath

end Found

end Report

namespace Session

open Report

/-- What a frame shows in any session. When its address is in a module with a known file and there
is a symbol, the distance leads from the start of the symbol to the address, and the symbol is of
the module that is shown unless a calling frame has the first address of its module. -/
theorem run_showsSymbol (world : World) (config : Config) (native : Option NativeSymbolizer)
    (chain : Option SourceChain) (events : List Event) (p : ProcessId) (render : RenderConfig)
    (arch : Architecture) (isCaller : Bool) (f : StackFrame) (base : UInt64) (module : String)
    (info : SymbolInfo) :
    let s := (start world config native chain).run events
    let live := s.symbolizer.live
    (moduleName? s.world p f.pc live).1 = some (base, module) →
      (live.resolve s.world p (f.pc - nudge render isCaller)).1 = .ok info →
        ShowsSymbol s.world p live render arch isCaller f base module info := by
  intro s live hmodule hinfo
  have hkeyed : live.cache.Keyed := kept_keyed.run _ events ModuleCache.keyed_empty
  exact showsSymbol hkeyed render arch isCaller hmodule hinfo

/-- A calling frame whose call is in the same module. -/
theorem loadedTwice_showsSymbol :
    let s := (start Symbolizer.loadedTwice {} none none).run [.operation (.attach ⟨1⟩)]
    let live := s.symbolizer.live
    ∃ info, ((moduleName? s.world ⟨1⟩ 0x401014 live).1 = some (0x400000, "a.exe") ∧
        (live.resolve s.world ⟨1⟩ (0x401014 - nudge {} true)).1 = .ok info) ∧
      ShowsSymbol s.world ⟨1⟩ live {} .x86 true { pc := 0x401014 } 0x400000 "a.exe" info ∧
      info.moduleBase = 0x400000 := by
  intro s live
  have hmodule : (moduleName? s.world ⟨1⟩ 0x401014 live).1 = some (0x400000, "a.exe") := by
    decide +kernel
  obtain ⟨info, hinfo⟩ : ∃ info,
      (live.resolve s.world ⟨1⟩ (0x401014 - nudge {} true)).1 = .ok info :=
    ⟨⟨"main", "main", 3, none, 0x400000, some "a.exe", "coff"⟩, by decide +kernel⟩
  have hshows := run_showsSymbol Symbolizer.loadedTwice {} none none [.operation (.attach ⟨1⟩)] ⟨1⟩
    {} .x86 true { pc := 0x401014 } 0x400000 "a.exe" info hmodule hinfo
  exact ⟨info, ⟨hmodule, hinfo⟩, hshows, hshows.sameModule_iff.mpr (by decide)⟩

/-- A module and another one that begins where it ends. -/
def neighbours : World where
  files := ({} : Files).write "a.exe" Symbolizer.oneFunction
  processes := (({} : ProcessMap).addModule ⟨1⟩ 0x400000 0x2000 (some "a.exe")).addModule
    ⟨1⟩ 0x402000 0x1000 (some "b.exe")

/-- After a call at its very end, the symbol of the first module is shown as one of the second. -/
theorem neighbours_showsOther :
    let s := (start neighbours {} none none).run [.operation (.attach ⟨1⟩)]
    let live := s.symbolizer.live
    (frame s.world {} ⟨1⟩ .x86 true { pc := 0x402000 } live).1 =
        "00402000 00000000 00000000 00000000  b.exe!main+0xff0\n" ∧
      ∃ info, (live.resolve s.world ⟨1⟩ (0x402000 - nudge {} true)).1 = .ok info ∧
        info.moduleBase = 0x400000 ∧ info.modulePath.map Path.baseName = some "a.exe" := by
  intro s live
  refine ⟨by decide +kernel, ⟨"main", "main", 0xFEF, none, 0x400000, some "a.exe", "coff"⟩, ?_, rfl,
    by decide⟩
  decide +kernel

end Session

end Postmortem
