import Postmortem.Proofs.Report.Stack

/-!
# Lines of a stack

A stack without source lines is meant to have a line for each frame. What the report itself writes
of a frame is one line. Names of modules, symbols and source files are written as they were found,
so each newline in one of them begins a line more.
-/
namespace Postmortem

namespace LiveSymbolizer

/-! ## Lookups do not disturb each other -/

/-- Whether a symbolizer has the settings and processes of another one, and finds the same in every
module: what that one keeps of it, or what it would read now. -/
structure Remembers (w : World) (s t : LiveSymbolizer) : Prop where
  keyed : t.cache.Keyed
  settings_eq : t = { s with cache := t.cache }
  isAttached_eq : ∀ p, t.cache.isAttached p = s.cache.isAttached p
  base_eq : ∀ p b, (t.recordAt w p b).base = (s.recordAt w p b).base
  path_eq : ∀ p b, (t.recordAt w p b).path = (s.recordAt w p b).path
  contents_eq : ∀ p b, t.contentsAt w p b = s.contentsAt w p b

variable {w : World} {s t : LiveSymbolizer} {p : ProcessId} {b : UInt64}

theorem Remembers.refl (h : s.cache.Keyed) : Remembers w s s :=
  ⟨h, rfl, fun _ => rfl, fun _ _ => rfl, fun _ _ => rfl, fun _ _ => rfl⟩

theorem recordAt_load (h : t.cache.isAttached p = true) (q : ProcessId) (a : UInt64) :
    (t.moduleLoadedFrom p b (w.processes.modulePath? p b)).2.recordAt w q a = t.recordAt w q a := by
  by_cases hq : q = p
  · subst hq
    exact t.recordAt_moduleLoadedFrom w q a b h
  · change ((t.cache.load p b _).2.record? q a).getD _ = _
    rw [t.cache.record?_load p q a b _ h, if_neg fun hboth => hq hboth.1]
    rfl

theorem recordAt_asked (hkeyed : t.cache.Keyed) (h : t.cache.isAttached p = true)
    (decoded : Decoded (t.contentsAt w p b)) (q : ProcessId) (a : UInt64) :
    (t.asked w p b decoded).recordAt w q a =
      if q = p ∧ a = b then { t.recordAt w p b with read := some ⟨t.contentsAt w p b, decoded⟩ }
      else t.recordAt w q a := by
  rw [recordAt, ModuleCache.loaded, t.asked_record? w p q a b decoded hkeyed h]
  split_ifs <;> rfl

/-- What is found of a module stays the same when modules are loaded and asked about. -/
theorem keptByLookups_remembers (w : World) (s : LiveSymbolizer) :
    KeptByLookups w (Remembers w s) where
  load t p b hp h := by
    have hrecord := recordAt_load (w := w) (b := b) hp
    let later := (t.moduleLoadedFrom p b (w.processes.modulePath? p b)).2
    refine ⟨h.keyed.load, ?_, ?_, ?_, ?_, ?_⟩
    · exact congrArg (fun u => { u with cache := later.cache }) h.settings_eq
    · intro q
      exact (t.cache.isAttached_load p q b _).trans (h.isAttached_eq q)
    · intro q a
      rw [hrecord, h.base_eq]
    · intro q a
      rw [hrecord, h.path_eq]
    · intro q a
      rw [← h.contents_eq, contentsAt, hrecord]
      rfl
  asked t p b decoded hp h := by
    have hrecord := recordAt_asked h.keyed hp decoded
    refine ⟨t.asked_keyed w p b decoded h.keyed, ?_, ?_, ?_, ?_, ?_⟩
    · exact congrArg (fun u => { u with cache := (t.asked w p b decoded).cache }) h.settings_eq
    · intro q
      rw [asked_isAttached, h.isAttached_eq]
    · intro q a
      rw [hrecord, ← h.base_eq]
      split_ifs with hqa
      · rw [hqa.1, hqa.2]
      · rfl
    · intro q a
      rw [hrecord, ← h.path_eq]
      split_ifs with hqa
      · rw [hqa.1, hqa.2]
      · rfl
    · intro q a
      rw [← h.contents_eq, contentsAt, hrecord]
      split_ifs with hqa
      · rw [hqa.1, hqa.2]
        rfl
      · rfl

namespace Remembers

variable (h : Remembers w s t)

include h

theorem outcome_eq (p : ProcessId) (b : UInt64) (found : Option ChainAnswer) :
    t.outcome (t.recordAt w p b) found = s.outcome (s.recordAt w p b) found := by
  rw [t.outcome_congr (h.base_eq p b) (h.path_eq p b), h.settings_eq]
  rfl

theorem ask_eq (k : Question) (p : ProcessId) (a : UInt64) :
    (k.ask w p a t).1 = (k.ask w p a s).1 := by
  by_cases hp : s.cache.isAttached p = true
  · have hp' : t.cache.isAttached p = true := (h.isAttached_eq p).trans hp
    cases ha : w.processes.moduleBase? p a with
    | none => rw [k.ask_of_no_module w p a t hp' ha, k.ask_of_no_module w p a s hp ha]
    | some b =>
      obtain ⟨_, ht⟩ := k.ask_of_module w p a b t hp' ha
      obtain ⟨_, hs⟩ := k.ask_of_module w p a b s hp ha
      have hchain : t.chain = s.chain := by rw [h.settings_eq]
      rw [ht, hs, h.outcome_eq, h.base_eq, h.contents_eq, hchain]
  · have hp' : ¬ t.cache.isAttached p = true := by rwa [h.isAttached_eq]
    rw [k.ask_of_not_isAttached w p a t hp', k.ask_of_not_isAttached w p a s hp]

theorem moduleName?_eq (p : ProcessId) (a : UInt64) :
    (Report.moduleName? w p a t).1 = (Report.moduleName? w p a s).1 := by
  simp only [Report.moduleName?_fst, h.isAttached_eq, h.base_eq, h.path_eq]

theorem frame_eq (config : RenderConfig) (p : ProcessId) (arch : Architecture) (isCaller : Bool)
    (f : Report.StackFrame) :
    (Report.frame w config p arch isCaller f t).1 =
      (Report.frame w config p arch isCaller f s).1 := by
  have hanswer : ∀ a, (t.resolve w p a).1 = (s.resolve w p a).1 := h.ask_eq .symbol p
  rw [Report.frame_fst, Report.frame_fst, h.moduleName?_eq, hanswer]

end Remembers

end LiveSymbolizer

/-! ## Counting lines -/

namespace Text

/-- How many newlines a text has. A text that ends with one has as many lines. -/
def breaks (s : String) : Nat := s.toList.count '\n'

@[simp]
theorem breaks_append (s t : String) : breaks (s ++ t) = breaks s + breaks t := by
  rw [breaks, String.toList_append, List.count_append]
  rfl

/-- Texts that are each one line, and `more` of them by what is in the text. -/
theorem breaks_join_mapIdx {α : Type} {write : Nat → α → String} {more : Nat → α → Nat}
    (h : ∀ i a, breaks (write i a) = 1 + more i a) (l : List α) :
    breaks (String.join (l.mapIdx write)) = l.length + (l.mapIdx more).sum := by
  induction l generalizing write more with
  | nil => rfl
  | cons a rest ih =>
    rw [List.mapIdx_cons, List.mapIdx_cons, String.join_cons, breaks_append, h,
      ih fun i => h (i + 1), List.length_cons, List.sum_cons]
    omega

theorem breaks_eq_zero_iff {s : String} : breaks s = 0 ↔ '\n' ∉ s.toList := List.count_eq_zero

theorem WritesHex.breaks_eq {digits n : Nat} {s : String} (h : WritesHex digits n s) :
    breaks s = 0 :=
  breaks_eq_zero_iff.mpr fun hmem => absurd (h.isUpperHex _ hmem) (by unfold IsUpperHex; decide)

theorem digitChar_ne_newline {d : Nat} (h : d < 16) : d.digitChar ≠ '\n' := by
  interval_cases d <;> decide

@[simp]
theorem breaks_hex (n : Nat) : breaks (hex n) = 0 := by
  refine breaks_eq_zero_iff.mpr fun hmem => ?_
  rw [hex, String.toList_ofList] at hmem
  exact forall_mem_hexDigits (P := (· ≠ '\n')) (fun _ => digitChar_ne_newline) n _ hmem rfl

@[simp]
theorem breaks_repr (n : Nat) : breaks n.repr = 0 := by
  refine breaks_eq_zero_iff.mpr fun hmem => ?_
  rw [Nat.repr, String.toList_ofList] at hmem
  exact absurd (Nat.isDigit_of_mem_toDigits (by decide) (by decide) hmem) (by decide)

end Text

namespace Report

open LiveSymbolizer Text

/-- What of the line of a frame was found: the names of the module and of the symbol, and the source
file. -/
def foundTexts : Option (UInt64 × String) → Except LookupError SymbolInfo → List String
  | none, _ => []
  | some (_, module), .error _ => [module]
  | some (_, module), .ok info => module :: info.name :: (info.location.map (·.1)).toList

/-- The names and the file that a symbolizer finds of a frame. -/
def frameTexts (w : World) (config : RenderConfig) (p : ProcessId) (s : LiveSymbolizer)
    (isCaller : Bool) (f : StackFrame) : List String :=
  foundTexts (moduleName? w p f.pc s).1 (s.resolve w p (f.pc - nudge config isCaller)).1

theorem breaks_frameAddresses (arch : Architecture) (f : StackFrame) :
    breaks (frameAddresses arch f) = 0 := by
  have haddress : ∀ a, breaks (arch.formatAddress a) = 0 := fun a =>
    (arch.formatAddress_writes a).breaks_eq
  have hspace : breaks " " = 0 := by decide
  simp only [frameAddresses_eq, breaks_append, haddress, hspace]

theorem breaks_stackHeader (arch : Architecture) : breaks (stackHeader arch) = 1 := by
  cases arch <;> decide

theorem breaks_locationText (location : Option (String × UInt32)) :
    breaks (locationText location) = ((location.map (·.1)).toList.map breaks).sum := by
  have hopen : breaks "  [" = 0 := by decide
  have hat : breaks " @ " = 0 := by decide
  have hclose : breaks "]" = 0 := by decide
  cases location with
  | none => rfl
  | some location => simp [locationText, hopen, hat, hclose]

/-- What the report itself writes of a frame is one line. -/
theorem breaks_frameDetail {config : RenderConfig} (hsource : config.showSource = false) (w : World)
    (pc nudge : UInt64) (answer : Except LookupError SymbolInfo)
    (module : Option (UInt64 × String)) :
    breaks (frameDetail w config pc nudge answer module) =
      1 + ((foundTexts module answer).map breaks).sum := by
  have hline : breaks "\n" = 1 := by decide
  have hmark : breaks "!" = 0 := by decide
  have hspaces : breaks "  " = 0 := by decide
  have hzero : breaks "0x" = 0 := by decide
  have hplus : breaks "+0x" = 0 := by decide
  rcases module with - | ⟨base, name⟩
  · exact hline
  · cases answer with
    | error e =>
      have hnone : breaks (frameSource w config (.error e)) = 0 := rfl
      simp only [frameDetail, symbolText, hexMarked, breaks_append, breaks_hex, foundTexts,
        List.map_cons, List.map_nil, List.sum_cons, List.sum_nil, hline, hmark, hspaces, hzero,
        hnone]
      omega
    | ok info =>
      have hnone : breaks (frameSource w config (.ok info)) = 0 := by
        unfold frameSource
        split
        · rw [if_neg (by rw [hsource]; decide)]
          rfl
        · rfl
      simp only [frameDetail_of_ok, symbolStart, symbolRest, breaks_append, breaks_hex, foundTexts,
        breaks_locationText, List.map_cons, List.sum_cons, hline, hmark, hspaces, hplus, hnone]
      omega

theorem breaks_frame {config : RenderConfig} (hsource : config.showSource = false) (w : World)
    (p : ProcessId) (arch : Architecture) (isCaller : Bool) (f : StackFrame) (s : LiveSymbolizer) :
    breaks (frame w config p arch isCaller f s).1 =
      1 + ((frameTexts w config p s isCaller f).map breaks).sum := by
  rw [frame_fst, breaks_append, breaks_frameAddresses, breaks_frameDetail hsource, frameTexts,
    Nat.zero_add]

/-- How many lines a stack without source lines has. -/
structure StackLines (w : World) (config : RenderConfig) (p : ProcessId) (arch : Architecture)
    (fs : List StackFrame) (s : LiveSymbolizer) : Prop where
  /-- The frames stand between a header and an empty line. -/
  text : (stack w config p arch fs s).1 =
    stackHeader arch ++
      String.join (fs.mapIdx fun i f => (frame w config p arch (0 < i) f s).1) ++ "\n"
  header : breaks (stackHeader arch) = 1
  /-- A frame is one line, and one more for each newline in what was found of it. -/
  frame : ∀ isCaller f, breaks (Report.frame w config p arch isCaller f s).1 =
    1 + ((frameTexts w config p s isCaller f).map breaks).sum
  stack : breaks (Report.stack w config p arch fs s).1 =
    fs.length + 2 +
      (fs.mapIdx fun i f => ((frameTexts w config p s (0 < i) f).map breaks).sum).sum
  /-- When no name of a module has a newline, then the lines are too many exactly when the name of a
  symbol or of a source file has one. -/
  tooMany_iff :
    (∀ f ∈ fs, ∀ base module, (moduleName? w p f.pc s).1 = some (base, module) →
      '\n' ∉ module.toList) →
    (fs.length + 2 < breaks (Report.stack w config p arch fs s).1 ↔
      ∃ i f base module info, fs[i]? = some f ∧
        (moduleName? w p f.pc s).1 = some (base, module) ∧
        (s.resolve w p (f.pc - nudge config (0 < i))).1 = .ok info ∧
        ('\n' ∈ info.name.toList ∨
          ∃ file line, info.location = some (file, line) ∧ '\n' ∈ file.toList))

section Lines

variable {w : World} {p : ProcessId} {s : LiveSymbolizer}

theorem mem_foundTexts {found : Option (UInt64 × String)} {answer : Except LookupError SymbolInfo}
    {text : String} :
    text ∈ foundTexts found answer ↔
      ∃ base module, found = some (base, module) ∧
        (text = module ∨ ∃ info, answer = .ok info ∧
          (text = info.name ∨ ∃ line, info.location = some (text, line))) := by
  rcases found with - | ⟨base, module⟩
  · simp [foundTexts]
  · cases answer with
    | error e => simp [foundTexts, eq_comm]
    | ok info => simp [foundTexts]

theorem sum_breaks_pos_iff {texts : List String} :
    0 < (texts.map breaks).sum ↔ ∃ text ∈ texts, '\n' ∈ text.toList := by
  rw [List.sum_pos_iff_exists_pos_nat]
  simp [breaks, List.count_pos_iff]

/-- The lines of a stack, when lookups do not disturb each other. -/
theorem stackLines (hkeyed : s.cache.Keyed) {config : RenderConfig}
    (hsource : config.showSource = false) (arch : Architecture) (fs : List StackFrame) :
    StackLines w config p arch fs s := by
  have hframe := fun isCaller f => breaks_frame hsource w p arch isCaller f s
  have htext : (stack w config p arch fs s).1 =
      stackHeader arch ++
        String.join (fs.mapIdx fun i f => (frame w config p arch (0 < i) f s).1) ++ "\n" := by
    have hframes := frames_fst_of_kept (keptByLookups_remembers w s) config arch
      (fun t ht => ht.frame_eq config p arch) (Remembers.refl hkeyed) false fs
    simp only [Bool.false_or] at hframes
    rw [← hframes]
    rfl
  have hlines : breaks (stack w config p arch fs s).1 =
      fs.length + 2 +
        (fs.mapIdx fun i f => ((frameTexts w config p s (0 < i) f).map breaks).sum).sum := by
    have hline : breaks "\n" = 1 := by decide
    rw [htext, breaks_append, breaks_append, breaks_stackHeader, hline,
      breaks_join_mapIdx fun i f => hframe (0 < i) f]
    omega
  refine ⟨htext, breaks_stackHeader arch, hframe, hlines, fun hmodules => ?_⟩
  rw [hlines, Nat.lt_add_right_iff_pos, List.sum_pos_iff_exists_pos_nat]
  constructor
  · rintro ⟨_, hmem, hpos⟩
    obtain ⟨i, hi, rfl⟩ := List.mem_mapIdx.mp hmem
    obtain ⟨text, htext, hbreak⟩ := sum_breaks_pos_iff.mp hpos
    obtain ⟨base, module, hmodule, rfl | ⟨info, hinfo, hfound⟩⟩ := mem_foundTexts.mp htext
    · exact absurd hbreak (hmodules _ (List.getElem_mem hi) base _ hmodule)
    · refine ⟨i, fs[i], base, module, info, List.getElem?_eq_getElem hi, hmodule, hinfo, ?_⟩
      obtain rfl | ⟨line, hlocation⟩ := hfound
      · exact .inl hbreak
      · exact .inr ⟨text, line, hlocation, hbreak⟩
  · rintro ⟨i, f, base, module, info, hf, hmodule, hinfo, hbreak⟩
    obtain ⟨hi, rfl⟩ := List.getElem?_eq_some_iff.mp hf
    refine ⟨_, List.mem_mapIdx.mpr ⟨i, hi, rfl⟩, sum_breaks_pos_iff.mpr ?_⟩
    obtain hname | ⟨file, line, hlocation, hfile⟩ := hbreak
    · exact ⟨info.name, mem_foundTexts.mpr ⟨base, module, hmodule, .inr ⟨info, hinfo, .inl rfl⟩⟩,
        hname⟩
    · exact ⟨file, mem_foundTexts.mpr
        ⟨base, module, hmodule, .inr ⟨info, hinfo, .inr ⟨line, hlocation⟩⟩⟩, hfile⟩

end Lines

end Report

namespace Session

open Report

/-- How many lines a stack has in any session, when source lines are not shown. -/
theorem run_stackLines (world : World) (config : Config) (native : Option NativeSymbolizer)
    (chain : Option SourceChain) (events : List Event) (p : ProcessId) (render : RenderConfig)
    (arch : Architecture) (fs : List StackFrame) :
    let s := (start world config native chain).run events
    render.showSource = false → StackLines s.world render p arch fs s.symbolizer.live := by
  intro s hsource
  have hkeyed : s.symbolizer.live.cache.Keyed := kept_keyed.run _ events ModuleCache.keyed_empty
  exact stackLines hkeyed hsource arch fs

/-- Two frames in a function whose name has no newline. -/
theorem loadedTwice_stackLines :
    let s := (start Symbolizer.loadedTwice {} none none).run [.operation (.attach ⟨1⟩)]
    let render : RenderConfig := { showSource := false }
    let fs : List StackFrame := [{ pc := 0x401014 }, { pc := 0x401018 }]
    render.showSource = false ∧ StackLines s.world render ⟨1⟩ .x86 fs s.symbolizer.live ∧
      Text.breaks (stack s.world render ⟨1⟩ .x86 fs s.symbolizer.live).1 = 4 := by
  intro s render fs
  have hlines : StackLines s.world render ⟨1⟩ .x86 fs s.symbolizer.live :=
    run_stackLines Symbolizer.loadedTwice {} none none [.operation (.attach ⟨1⟩)] ⟨1⟩ render .x86 fs
      rfl
  exact ⟨rfl, hlines, by decide +kernel⟩

/-- A module with one function, which has the name `main` and `foo` with a newline in between. -/
def twoLineName : World where
  files := ({} : Files).write "a.exe"
    ⟨Symbolizer.oneFunction.data.extract 0 (Symbolizer.oneFunction.size - 22) ++
      ⟨[0x6D, 0x61, 0x69, 0x6E, 0x0A, 0x66, 0x6F, 0x6F, 0x10, 0, 0, 0, 1, 0, 0x20, 0, 2, 0] ++
        [4, 0, 0, 0]⟩⟩
  processes := ({} : ProcessMap).addModule ⟨1⟩ 0x400000 0x2000 (some "a.exe")

/-- Its name makes two lines of the one frame. -/
theorem twoLineName_forgesLine :
    let s := (start twoLineName {} none none).run [.operation (.attach ⟨1⟩)]
    (moduleName? s.world ⟨1⟩ 0x401014 s.symbolizer.live).1 = some (0x400000, "a.exe") ∧
      (stack s.world { showSource := false } ⟨1⟩ .x86 [{ pc := 0x401014 }] s.symbolizer.live).1 =
        "AddrPC   Params\n00401014 00000000 00000000 00000000  a.exe!main\nfoo+0x4\n\n" ∧
      Text.breaks
        (stack s.world { showSource := false } ⟨1⟩ .x86 [{ pc := 0x401014 }]
          s.symbolizer.live).1 ≠ 1 + 2 := by
  decide +kernel

end Session

end Postmortem
