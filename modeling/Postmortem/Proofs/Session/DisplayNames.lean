import Postmortem.Proofs.Session.ImageFiles
import Postmortem.Proofs.Symbolizer.DisplayNames

/-!
# Names in a session

The choice how names are shown may be made at the start and changed at any time. In two runs with
the same calls apart from this choice every answer is the same but for the name that is shown, and
that name is always the one of the choice that was made last, for processes and for image files.
-/
namespace Postmortem

namespace Call

/-- The choice that a call makes whether names are shown in readable form. -/
def demangle? : Call → Option Bool
  | .operation (.setDemangle demangle) => some demangle
  | _ => none

/-- Whether a call leaves the choice how names are shown alone. -/
def keepsNames (call : Call) : Bool := call.demangle?.isNone

theorem demangle?_of_keepsNames {call : Call} (h : call.keepsNames = true) :
    call.demangle? = none :=
  Option.isNone_iff_eq_none.mp h

theorem eq_setDemangle_of_not_keepsNames {call : Call} (h : ¬ call.keepsNames = true) :
    ∃ demangle, call = .operation (.setDemangle demangle) := by
  cases call with
  | operation operation =>
    cases operation with
    | setDemangle demangle => exact ⟨demangle, rfl⟩
    | _ => exact absurd rfl h
  | _ => exact absurd rfl h

end Call

/-- A reply but for the names that it shows. Of a report nothing is left. -/
def Reply.unnamed : Reply → Reply
  | .symbol info => .symbol (info.map SymbolInfo.unnamed)
  | .text _ => .text ""
  | other => other

namespace Session

/-- A session whose symbolizer was not told how to show names. -/
def unnamed (s : Session) : Session where
  world := s.world
  symbolizer := { live := s.symbolizer.live.unnamed, offline := some s.symbolizer.images.unnamed }

theorem ext_parts {s t : Session} (hworld : s.world = t.world)
    (hlive : s.symbolizer.live = t.symbolizer.live)
    (hoffline : s.symbolizer.offline = t.symbolizer.offline) : s = t := by
  obtain ⟨w, live, offline⟩ := s
  obtain ⟨_, _, _⟩ := t
  subst hworld hlive hoffline
  rfl

variable (s : Session) (call : Call)

theorem reply_unnamed : (s.unnamed.reply call).unnamed = (s.reply call).unnamed := by
  let live := s.symbolizer.live
  cases call with
  | operation operation =>
    cases operation with
    | ask k p a =>
      exact congrArg Reply.symbol (live.question_unnamed s.world p a k).1
    | resolveInFile path rva =>
      exact congrArg Reply.symbol (s.symbolizer.images.resolve_unnamed s.world.files path rva).1
    | _ => rfl
  | offlineCounters =>
    exact congrArg Reply.counters s.symbolizer.offlineCounters_eq.symm
  | _ => rfl

theorem world_after_unnamed : (s.unnamed.after call).world = (s.after call).world := by
  cases call <;> rfl

theorem live_after_unnamed :
    (s.unnamed.after call).symbolizer.live.unnamed = (s.after call).symbolizer.live.unnamed := by
  let live := s.symbolizer.live
  cases call with
  | operation operation =>
    cases operation with
    | ask k p a =>
      have hask := congrArg LiveSymbolizer.unnamed (live.question_unnamed s.world p a k).2
      exact hask
    | report config request =>
      have hwrite := congrArg LiveSymbolizer.unnamed
        (Report.write_unnamed s.world config live request)
      exact hwrite
    | _ => rfl
  | _ => rfl

theorem images_after_unnamed :
    (s.unnamed.after call).symbolizer.images.unnamed =
      (s.after call).symbolizer.images.unnamed := by
  obtain ⟨path, rva, rfl, himages⟩ | ⟨demangle, rfl, himages⟩ | ⟨hfile, hdemangle, himages⟩ :=
    s.images_after_cases call
  · have hresolve := congrArg OfflineImages.unnamed
      (s.symbolizer.images.resolve_unnamed s.world.files path rva).2
    rw [himages]
    exact hresolve
  · rw [himages]
    rfl
  · rw [himages]
    obtain ⟨path, rva, rfl, -⟩ | ⟨demangle, rfl, -⟩ | ⟨-, -, hsame⟩ :=
      s.unnamed.images_after_cases call
    · cases hfile
    · exact absurd rfl (hdemangle demangle)
    · rw [hsame]
      rfl

/-- A call does the same in a session whose symbolizer was not told how to show names. -/
theorem after_unnamed : (s.unnamed.after call).unnamed = (s.after call).unnamed :=
  ext_parts (s.world_after_unnamed call) (s.live_after_unnamed call)
    (congrArg some (s.images_after_unnamed call))

/-- The choice how names are shown changes nothing else. -/
theorem unnamed_after_choice (h : ¬ call.keepsNames = true) :
    (s.after call).unnamed = s.unnamed := by
  obtain ⟨demangle, rfl⟩ := Call.eq_setDemangle_of_not_keepsNames h
  refine ext_parts rfl rfl ?_
  exact congrArg (some ·.unnamed) (s.symbolizer.images_setDemangle demangle)

/-- What is done and replied apart from names does not depend on how they are shown. -/
theorem corresponds_unnamed : Corresponds Call.keepsNames (fun s t => s.unnamed = t.unnamed)
    (fun x y => x.unnamed = y.unnamed) := by
  refine .of_part unnamed ?_ ?_
  · intro s t call _ h
    constructor
    · rw [← s.reply_unnamed call, ← t.reply_unnamed call, h]
    · rw [← s.after_unnamed call, ← t.after_unnamed call, h]
  · exact unnamed_after_choice

/-- How names are shown after some calls, when it was chosen at the start. -/
def chosen (initial : Bool) (calls : List Call) : Bool :=
  calls.foldl (fun demangle call => call.demangle?.getD demangle) initial

/-- How the names of a session are shown, those of processes and those of image files. -/
structure NamesShown (demangle : Bool) (style : Demangle.Style)
    (native : Option NativeSymbolizer) (s : Session) : Prop where
  demangle_eq : s.symbolizer.live.config.demangle = demangle
  style_eq : s.symbolizer.live.config.demangleStyle = style
  native_eq : s.symbolizer.live.native = native
  images_config : s.symbolizer.images.symbolizer.config = s.symbolizer.live.config
  images_native : s.symbolizer.images.symbolizer.native = none

theorem settings_after (h : call.keepsNames = true) :
    (s.after call).symbolizer.live.config = s.symbolizer.live.config ∧
      (s.after call).symbolizer.live.native = s.symbolizer.live.native := by
  let live := s.symbolizer.live
  have hconfig := keptByLookups_settings s.world LiveSymbolizer.config (fun _ _ => rfl) live.config
  have hnative := keptByLookups_settings s.world LiveSymbolizer.native (fun _ _ => rfl) live.native
  cases call with
  | operation operation =>
    cases operation with
    | lookupModule p a => exact ⟨hconfig.lookup live p a rfl, hnative.lookup live p a rfl⟩
    | ask k p a => exact ⟨hconfig.ask k live p a rfl, hnative.ask k live p a rfl⟩
    | report config request =>
      exact ⟨hconfig.report config request live rfl, hnative.report config request live rfl⟩
    | setDemangle demangle => cases h
    | _ => exact ⟨rfl, rfl⟩
  | _ => exact ⟨rfl, rfl⟩

namespace NamesShown

variable {demangle : Bool} {style : Demangle.Style} {native : Option NativeSymbolizer} {s : Session}
  (h : s.NamesShown demangle style native)

include h

/-- A choice holds for processes and image files from then on. -/
theorem after_choice (later : Bool) :
    (s.after (.operation (.setDemangle later))).NamesShown later style native := by
  have himages := s.symbolizer.images_setDemangle later
  refine ⟨rfl, h.style_eq, h.native_eq, ?_, ?_⟩
  · change (s.symbolizer.setDemangle later).images.symbolizer.config = _
    rw [himages]
    exact congrArg (fun config : Config => { config with demangle := later }) h.images_config
  · change (s.symbolizer.setDemangle later).images.symbolizer.native = none
    rw [himages]
    exact h.images_native

theorem after (call : Call) :
    (s.after call).NamesShown (call.demangle?.getD demangle) style native := by
  by_cases hcall : call.keepsNames = true
  · obtain ⟨hconfig, hnative⟩ := s.settings_after call hcall
    have himages : (s.after call).symbolizer.images.symbolizer.config =
          s.symbolizer.images.symbolizer.config ∧
        (s.after call).symbolizer.images.symbolizer.native =
          s.symbolizer.images.symbolizer.native := by
      obtain ⟨path, rva, -, heq⟩ | ⟨later, rfl, -⟩ | ⟨-, -, heq⟩ := s.images_after_cases call
      · rw [heq]
        let o := s.symbolizer.images
        exact ⟨o.settings_resolve LiveSymbolizer.config (fun _ _ => rfl) s.world.files path rva,
          o.settings_resolve LiveSymbolizer.native (fun _ _ => rfl) s.world.files path rva⟩
      · cases hcall
      · rw [heq]
        exact ⟨rfl, rfl⟩
    rw [Call.demangle?_of_keepsNames hcall, Option.getD_none]
    refine ⟨?_, ?_, hnative.trans h.native_eq, ?_, himages.2.trans h.images_native⟩
    · rw [hconfig, h.demangle_eq]
    · rw [hconfig, h.style_eq]
    · rw [himages.1, hconfig, h.images_config]
  · obtain ⟨later, rfl⟩ := Call.eq_setDemangle_of_not_keepsNames hcall
    exact h.after_choice later

theorem afterAll (calls : List Call) :
    (s.afterAll calls).NamesShown (chosen demangle calls) style native := by
  induction calls generalizing s demangle with
  | nil => exact h
  | cons call rest ih => exact ih (h.after call)

/-- The name that is shown of an address in a process. -/
theorem name_of_ask {k : Question} {p : ProcessId} {a : UInt64} {info : SymbolInfo}
    (hreply : s.reply (.operation (.ask k p a)) = .symbol (.ok info)) :
    info.name = shownName demangle style native info.rawName := by
  have hname := Question.name_of_ask (Reply.symbol.inj hreply)
  rwa [h.demangle_eq, h.style_eq, h.native_eq] at hname

/-- The name that is shown of an address in an image file. -/
theorem name_of_resolveInFile {path : String} {rva : UInt64} {info : SymbolInfo}
    (hreply : s.reply (.operation (.resolveInFile path rva)) = .symbol (.ok info)) :
    info.name = shownName demangle style none info.rawName := by
  let o := s.symbolizer.images
  have hname : info.name = shownName (o.processFor path).2.symbolizer.config.demangle
      (o.processFor path).2.symbolizer.config.demangleStyle
      (o.processFor path).2.symbolizer.native info.rawName :=
    Question.name_of_ask (k := .symbol) (Reply.symbol.inj hreply)
  have hconfig := o.settings_processFor LiveSymbolizer.config (fun _ _ => rfl) path
  have hnative := o.settings_processFor LiveSymbolizer.native (fun _ _ => rfl) path
  rw [hconfig, hnative, h.images_config, h.images_native, h.demangle_eq, h.style_eq] at hname
  exact hname

end NamesShown

/-- What the choice how names are shown has a part in, in a session with these calls. -/
structure ChoosesNames (world : World) (config : Config) (native : Option NativeSymbolizer)
    (chain : Option SourceChain) (calls : List Call) : Prop where
  /-- In a run with another choice at the start, and other choices later on, every reply is the same
  but for the names that are shown. -/
  unnamed_eq : ∀ (demangle : Bool) (style : Demangle.Style) (others : List Call),
    others.filter Call.keepsNames = calls.filter Call.keepsNames →
    List.Forall₂ (fun x y => x.1 = y.1 ∧ x.2.unnamed = y.2.unnamed)
      (((start world { config with demangle, demangleStyle := style } native chain).replies
        others).filter fun answered => answered.1.keepsNames)
      (((start world config native chain).replies calls).filter fun answered =>
        answered.1.keepsNames)
  /-- The name that is shown is the one of the last choice. -/
  name_eq : ∀ k p a info,
    ((start world config native chain).afterAll calls).reply (.operation (.ask k p a)) =
      .symbol (.ok info) →
    info.name = shownName (chosen config.demangle calls) config.demangleStyle native info.rawName
  /-- So it is for image files, of which the symbol engine of the system is not asked. -/
  fileName_eq : ∀ path rva info,
    ((start world config native chain).afterAll calls).reply
      (.operation (.resolveInFile path rva)) = .symbol (.ok info) →
    info.name = shownName (chosen config.demangle calls) config.demangleStyle none info.rawName
  /-- A symbol that was found has a name. -/
  rawName_ne : ∀ p a info,
    ((start world config native chain).afterAll calls).reply (.operation (.ask .symbol p a)) =
      .symbol (.ok info) → info.rawName ≠ ""
  fileRawName_ne : ∀ path rva info,
    ((start world config native chain).afterAll calls).reply
      (.operation (.resolveInFile path rva)) = .symbol (.ok info) → info.rawName ≠ ""

/-- In every session, whenever and however often the choice how names are shown is made, it changes
the shown names of later answers and nothing else. -/
theorem afterAll_choosesNames (world : World) (config : Config) (native : Option NativeSymbolizer)
    (chain : Option SourceChain) (calls : List Call) :
    ChoosesNames world config native chain calls := by
  have hstart : (start world config native chain).NamesShown config.demangle
      config.demangleStyle native := ⟨rfl, rfl, rfl, rfl, rfl⟩
  have hshown := hstart.afterAll calls
  refine ⟨?_, ?_, ?_, ?_, ?_⟩
  · intro demangle style others hothers
    have hsame :
        (start world { config with demangle, demangleStyle := style } native chain).unnamed =
          (start world config native chain).unnamed := rfl
    exact (corresponds_unnamed.replies hsame others calls hothers).1
  · intro k p a info hreply
    exact hshown.name_of_ask hreply
  · intro path rva info hreply
    exact hshown.name_of_resolveInFile hreply
  · intro p a info hreply
    exact Question.rawName_ne_of_ask (Reply.symbol.inj hreply)
  · intro path rva info hreply
    exact Question.rawName_ne_of_ask (Reply.symbol.inj hreply)

end Session

end Postmortem
