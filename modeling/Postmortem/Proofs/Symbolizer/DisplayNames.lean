import Postmortem.Proofs.Symbol.Chain
import Postmortem.Proofs.Symbolizer.ImageFiles

/-!
# Names as they are shown

How names are shown has a part in one thing only: the name that is shown in an answer. A symbolizer
that is stripped of the choice does all the same, reads and keeps the same, and its answers are the
same but for that name.
-/
namespace Postmortem

/-- What is known of an address but for the name that is shown. -/
def SymbolInfo.unnamed (info : SymbolInfo) : SymbolInfo := { info with name := "" }

/-- The settings without the choice how names are shown. -/
def Config.unnamed (config : Config) : Config :=
  { config with demangle := false, demangleStyle := .nameOnly }

namespace LiveSymbolizer

/-- A symbolizer that was not told how to show names. -/
def unnamed (s : LiveSymbolizer) : LiveSymbolizer := { s with config := s.config.unnamed }

variable (s : LiveSymbolizer) (w : World) (p : ProcessId) (a : UInt64)

theorem lookupModule_unnamed :
    s.unnamed.lookupModule w p a =
      ((s.lookupModule w p a).1, (s.lookupModule w p a).2.unnamed) := rfl

theorem lookupContents_unnamed :
    s.unnamed.lookupContents w p a =
      ((s.lookupContents w p a).1, (s.lookupContents w p a).2.unnamed) := by
  rw [lookupContents, lookupContents, lookupModule_unnamed]
  cases s.lookupModule w p a with
  | mk found t => cases found <;> rfl

theorem outcome_unnamed (r : ModuleRecord) (found : Option ChainAnswer) :
    (s.unnamed.outcome r found).map SymbolInfo.unnamed =
      (s.outcome r found).map SymbolInfo.unnamed := by
  cases found <;> rfl

/-- A question does the same, and is answered in the same way but for the name. -/
theorem ask_unnamed {answer : SymbolQuery → Option ChainAnswer}
    (find : (q : SymbolQuery) → Recall (Decoded q.contents) (answer q)) :
    (s.unnamed.ask w p a find).1.map SymbolInfo.unnamed =
        (s.ask w p a find).1.map SymbolInfo.unnamed ∧
      (s.unnamed.ask w p a find).2 = (s.ask w p a find).2.unnamed := by
  rw [ask, ask, lookupContents_unnamed]
  cases s.lookupContents w p a with
  | mk found t =>
    cases found with
    | error e => exact ⟨rfl, rfl⟩
    | ok found => exact ⟨t.outcome_unnamed _ _, rfl⟩

theorem question_unnamed (k : Question) :
    (k.ask w p a s.unnamed).1.map SymbolInfo.unnamed = (k.ask w p a s).1.map SymbolInfo.unnamed ∧
      (k.ask w p a s.unnamed).2 = (k.ask w p a s).2.unnamed := by
  rw [k.ask_eq, k.ask_eq]
  exact s.ask_unnamed w p a _

end LiveSymbolizer

namespace Report

variable (w : World) (config : RenderConfig) (p : ProcessId) (arch : Architecture)
  (s : LiveSymbolizer)

theorem moduleName?_unnamed (a : UInt64) :
    moduleName? w p a s.unnamed =
      ((moduleName? w p a s).1, (moduleName? w p a s).2.unnamed) := by
  rw [moduleName?, moduleName?, LiveSymbolizer.lookupModule_unnamed]
  cases s.lookupModule w p a with
  | mk found t => cases found <;> rfl

theorem frame_unnamed (isCaller : Bool) (f : StackFrame) :
    (frame w config p arch isCaller f s.unnamed).2 =
      (frame w config p arch isCaller f s).2.unnamed := by
  rw [frame, frame, moduleName?_unnamed]
  cases moduleName? w p f.pc s with
  | mk name t =>
    cases name with
    | none => rfl
    | some module => exact (t.question_unnamed w p _ .symbol).2

theorem frames_unnamed (isCaller : Bool) (fs : List StackFrame) :
    (frames w config p arch isCaller fs s.unnamed).2 =
      (frames w config p arch isCaller fs s).2.unnamed := by
  induction fs generalizing isCaller s with
  | nil => rfl
  | cons f rest ih =>
    have hframe := frame_unnamed w config p arch s isCaller f
    have hrest := ih (frame w config p arch isCaller f s).2 true
    rw [← hframe] at hrest
    exact hrest

/-- A report may show other names, but it does the same. -/
theorem write_unnamed (request : Request) :
    (request.write w config s.unnamed).2 = (request.write w config s).2.unnamed := by
  cases request with
  | frame p arch isCaller f => exact frame_unnamed w config p arch s isCaller f
  | stack p arch fs => exact frames_unnamed w config p arch s false fs
  | crash p context fs => exact frames_unnamed w config p context.architecture s false fs
  | exception p image arch e => exact congrArg Prod.snd (moduleName?_unnamed w p s e.address)

end Report

namespace OfflineImages

/-- Image files whose symbolizer was not told how to show names. -/
def unnamed (o : OfflineImages) : OfflineImages := { o with symbolizer := o.symbolizer.unnamed }

variable (o : OfflineImages)

theorem processFor_unnamed (path : String) :
    o.unnamed.processFor path = ((o.processFor path).1, (o.processFor path).2.unnamed) := by
  cases hp : o.byPath.get? (Path.meaning path) with
  | some p => rw [processFor_of_known hp, processFor_of_known (o := o.unnamed) hp]
  | none =>
    rw [o.processFor_of_new path hp, o.unnamed.processFor_of_new path hp]
    rfl

theorem resolve_unnamed (files : Files) (path : String) (rva : UInt64) :
    (o.unnamed.resolve files path rva).1.map SymbolInfo.unnamed =
        (o.resolve files path rva).1.map SymbolInfo.unnamed ∧
      (o.unnamed.resolve files path rva).2 = (o.resolve files path rva).2.unnamed := by
  rw [resolve, resolve, processFor_unnamed]
  cases o.processFor path with
  | mk p o =>
    have h := o.symbolizer.question_unnamed ⟨files, o.processes⟩ p rva .symbol
    exact ⟨h.1, congrArg (fun symbolizer => { o with symbolizer }) h.2⟩

section Settings

variable {α : Type} (settings : LiveSymbolizer → α)
  (h : ∀ s cache, settings { s with cache } = settings s)

include h

theorem settings_processFor (path : String) :
    settings (o.processFor path).2.symbolizer = settings o.symbolizer := by
  cases hp : o.byPath.get? (Path.meaning path) with
  | some p => rw [processFor_of_known hp]
  | none =>
    rw [o.processFor_of_new path hp]
    exact h o.symbolizer _

theorem settings_resolve (files : Files) (path : String) (rva : UInt64) :
    settings (o.resolve files path rva).2.symbolizer = settings o.symbolizer :=
  (keptByLookups_settings _ settings h (settings o.symbolizer)).ask .symbol _ _ rva
    (o.settings_processFor settings h path)

end Settings

end OfflineImages

/-! The name that is shown is known from the name that the source has. -/

/-- A name as it is shown under a choice: as it is, or in readable form if there is one. -/
def shownName (demangle : Bool) (style : Demangle.Style) (native : Option NativeSymbolizer)
    (raw : String) : String :=
  if demangle then
    ((demangle? style raw).or (native.bind fun n => n.undecorate? raw)).getD raw
  else raw

theorem SourceChain.name_ne_of_resolve? {chain : SourceChain} {q : SymbolQuery}
    {answer : ChainAnswer} (h : chain.resolve? q = some answer) : answer.symbol.name ≠ "" := by
  obtain ⟨hname, -⟩ := (chain.resolve?_eq_some_iff q answer).mp h
  obtain ⟨source, hfirst, -⟩ := (chain.name?_eq_some_iff q _ _).mp hname
  obtain ⟨before, after, -, -, hne, -⟩ := hfirst
  exact hne

namespace Question

/-- What is known of an address comes from an answer of the module. -/
theorem answer_of_ask {k : Question} {w : World} {p : ProcessId} {a : UInt64} {s : LiveSymbolizer}
    {info : SymbolInfo} (h : (k.ask w p a s).1 = .ok info) :
    ∃ q found r, k.answer? s.chain q = some found ∧ info = s.info r found := by
  by_cases hp : s.cache.isAttached p = true
  · cases ha : w.processes.moduleBase? p a with
    | none =>
      rw [k.ask_of_no_module w p a s hp ha] at h
      cases h
    | some b =>
      obtain ⟨decoded, hask⟩ := k.ask_of_module w p a b s hp ha
      rw [hask] at h
      dsimp only at h
      cases hfound : k.answer? s.chain ⟨p, a, (s.recordAt w p b).base, s.contentsAt w p b⟩ with
      | none =>
        rw [hfound] at h
        cases h
      | some found =>
        rw [hfound] at h
        exact ⟨_, found, _, hfound, (Except.ok.inj h).symm⟩
  · rw [k.ask_of_not_isAttached w p a s hp] at h
    cases h

theorem name_of_ask {k : Question} {w : World} {p : ProcessId} {a : UInt64} {s : LiveSymbolizer}
    {info : SymbolInfo} (h : (k.ask w p a s).1 = .ok info) :
    info.name = shownName s.config.demangle s.config.demangleStyle s.native info.rawName := by
  obtain ⟨q, found, r, -, rfl⟩ := answer_of_ask h
  rfl

/-- A symbol that sources know has a name. -/
theorem rawName_ne_of_ask {w : World} {p : ProcessId} {a : UInt64} {s : LiveSymbolizer}
    {info : SymbolInfo} (h : (symbol.ask w p a s).1 = .ok info) : info.rawName ≠ "" := by
  obtain ⟨q, found, r, hfound, rfl⟩ := answer_of_ask h
  exact SourceChain.name_ne_of_resolve? hfound

end Question

end Postmortem
