import Postmortem.Proofs.File.Spelling
import Postmortem.Proofs.Session.ImageFiles
import Postmortem.Proofs.Symbol.LoadAddress

/-!
# Loaded images and image files

A place in an image has the same symbol wherever the image is loaded, and also when it is only a
file that no process has loaded. This is so for the sources that read images, in a symbolizer that
does not ask the symbol engine of the system.

There is one way to miss an image file. Paths that mean the same share what was read by the first of
them, and that one may lead nowhere: `a.exe/` means the same as `a.exe`, but only a directory could
be opened by it.
-/
namespace Postmortem

/-- Whether two descriptions show the same symbol. They may tell different bases, and two paths
count as one when they mean the same. -/
structure SymbolInfo.SameSymbol (x y : SymbolInfo) : Prop where
  name_eq : x.name = y.name
  rawName_eq : x.rawName = y.rawName
  displacement_eq : x.displacement = y.displacement
  location_eq : x.location = y.location
  source_eq : x.source = y.source
  modulePath_eq : x.modulePath.map Path.meaning = y.modulePath.map Path.meaning

/-- Whether two lookups come to the same: no symbol is found, or the same one is. -/
inductive SameOutcome : Except LookupError SymbolInfo → Except LookupError SymbolInfo → Prop
  | notFound : SameOutcome (.error .notFound) (.error .notFound)
  | found {x y : SymbolInfo} (h : x.SameSymbol y) : SameOutcome (.ok x) (.ok y)

namespace Uncached

/-- An image file that cannot be opened has no symbols. -/
theorem answer_of_unopened {u : Uncached} {files : Files} {processes : ProcessMap} {p : ProcessId}
    {rva : UInt64} {path : String} (hchain : u.chain = .standard none) (hp : u.attached p = true)
    (hlayout : processes.layout p = OfflineImages.layoutOf path)
    (hrva : rva < OfflineImages.imageSpan) (hentry : files.entry? path = none) :
    u.answer .symbol ⟨files, processes⟩ p rva = .error .notFound := by
  have hopen : ∀ limit, (Image.openFile files path limit).toOption = none := by
    intro limit
    cases h : Image.openFile files path limit with
    | error e => rfl
    | ok image => exact absurd hentry (Image.entry?_ne_none_of_openFile h)
  have hbuild := OfflineImages.build_of_layout hlayout files u.config.images.maxImageSize.toNat
  rw [ModuleImage.ofFile, hopen] at hbuild
  rw [answer, if_pos hp]
  dsimp only
  rw [OfflineImages.moduleBase?_of_layout hlayout hrva]
  dsimp only
  rw [OfflineImages.modulePath?_of_layout hlayout, hbuild, hchain]
  rfl

theorem Matches.resolve_fst {u : Uncached} {w : World} {s : LiveSymbolizer} (h : u.Matches w s)
    (p : ProcessId) (a : UInt64) : (s.resolve w p a).1 = u.answer .symbol w p a :=
  h.answer_eq .symbol p a

/-- Asking about the address at a distance from a base leads to the module that is loaded there from
a file. -/
structure Sees (u : Uncached) (w : World) (p : ProcessId) (b rva : UInt64) (path : String) :
    Prop where
  attached : u.attached p = true
  moduleBase?_eq : w.processes.moduleBase? p (b + rva) = some b
  modulePath?_eq : w.processes.modulePath? p b = some path

/-- Symbolizers with the usual sources and the same settings find the same symbol at the same
distance from where an image is loaded. -/
theorem Sees.sameOutcome {u u' : Uncached} {w w' : World} {p p' : ProcessId} {b b' rva : UInt64}
    {path path' : String} {image : Image} (h : u.Sees w p b rva path)
    (h' : u'.Sees w' p' b' rva path') (hchain : u.chain = .standard none)
    (hchain' : u'.chain = .standard none) (hnative : u'.native = u.native)
    (hconfig : u'.config = u.config) (hmeaning : Path.meaning path = Path.meaning path')
    (hopen : Image.openFile w.files path u.config.images.maxImageSize.toNat = .ok image)
    (hopen' : Image.openFile w'.files path' u.config.images.maxImageSize.toNat =
      .ok (image.withPath (some path'))) :
    SameOutcome (u.answer .symbol w p (b + rva)) (u'.answer .symbol w' p' (b' + rva)) := by
  have hle := ProcessMap.le_of_moduleBase? h.moduleBase?_eq
  have hle' := ProcessMap.le_of_moduleBase? h'.moduleBase?_eq
  have hbuild := ModuleImage.build_of_openFile hopen w.processes p b
  have hbuild' := ModuleImage.build_of_openFile hopen' w'.processes p' b'
  have hplace : SymbolQuery.SamePlace
      ⟨p, b + rva, b, ⟨some image, ModuleImage.debugInfo? image⟩⟩
      ⟨p', b' + rva, b', ⟨some (image.withPath (some path')), ModuleImage.debugInfo? image⟩⟩ := by
    refine ⟨⟨some path', rfl⟩, rfl, ?_⟩
    rw [SymbolQuery.imageAddress?, SymbolQuery.imageAddress?, ModuleImage.imageAddress?_add _ hle,
      ModuleImage.imageAddress?_add _ hle']
    rfl
  rw [answer, if_pos h.attached, h.moduleBase?_eq, answer, if_pos h'.attached, h'.moduleBase?_eq]
  dsimp only [Question.answer?]
  rw [h.modulePath?_eq, h'.modulePath?_eq, hconfig, hbuild, hbuild', hchain, hchain',
    ModuleImage.debugInfo?_withPath, hplace.resolve?_standard_eq]
  cases SourceChain.resolve? (.standard none) _ with
  | none => exact .notFound
  | some found =>
    refine .found ⟨?_, rfl, rfl, rfl, rfl, congrArg some hmeaning⟩
    simp only [displayName, hconfig, hnative]

end Uncached

/-- Calls of operations alone do what the operations do. -/
theorem Session.afterAll_operations (s : Session) (operations : List Operation) :
    s.afterAll (operations.map .operation) =
      { s with symbolizer := s.symbolizer.performAll s.world operations } := by
  rw [← s.run_operations, afterAll, run, List.foldl_map, List.foldl_map]
  rfl

namespace Symbolizer

/-- Whether a symbolizer is one that was told and asked something in a world that did not change
meanwhile. -/
def ReachedBy (w : World) (operations : List Operation) (s : Symbolizer) : Prop :=
  ∃ config native chain, s = (create config native chain).performAll w operations

/-- The paths of the image files that some operations ask about. -/
def filesAsked (operations : List Operation) : List String :=
  Session.filesAsked (operations.map .operation)

/-- The spelling by which an image file is opened: that of the first question about it. -/
def firstSpelling (operations : List Operation) (path : String) : String :=
  (Path.spelling? (filesAsked operations) (Path.meaning path)).getD path

theorem spelling?_append_eq (operations : List Operation) (path : String) :
    Path.spelling? (filesAsked operations ++ [path]) (Path.meaning path) =
      some (firstSpelling operations path) := by
  rw [Path.spelling?, List.find?_append, List.find?_singleton, if_pos (decide_eq_true rfl)]
  exact Option.or_some ..

theorem meaning_firstSpelling (operations : List Operation) (path : String) :
    Path.meaning (firstSpelling operations path) = Path.meaning path :=
  of_decide_eq_true (List.find?_some (p := fun first => Path.meaning first = Path.meaning path)
    (spelling?_append_eq operations path))

theorem fileCount_append_le (operations : List Operation) (path : String) :
    Path.fileCount (filesAsked operations ++ [path]) ≤ operations.length + 1 := by
  refine Nat.le_trans (List.toFinset_card_le _) ?_
  rw [List.length_map, List.length_append, filesAsked, Session.filesAsked, List.length_map]
  refine Nat.succ_le_succ (Nat.le_trans (List.length_filterMap_le ..) ?_)
  exact Nat.le_of_eq (List.length_map ..)

/-- The address at a distance from a base lies in the module there, which has a file. -/
structure LoadedFrom (s : Symbolizer) (w : World) (p : ProcessId) (b rva : UInt64) (path : String) :
    Prop where
  attached : s.live.cache.isAttached p = true
  moduleBase?_eq : w.processes.moduleBase? p (b + rva) = some b
  modulePath?_eq : w.processes.modulePath? p b = some path

section Reached

variable {s t : Symbolizer} {w w' : World} {operations operations' : List Operation}
  {path : String} {image : Image}

theorem ReachedBy.matches (hs : s.ReachedBy w operations) :
    ∃ u : Uncached, u.Matches w s.live := by
  obtain ⟨config, native, chain, rfl⟩ := hs
  exact ⟨_, (settled_create w config native chain fun _ => True).live.performAll operations⟩

/-- The image files of a symbolizer are those that it was asked about. -/
theorem ReachedBy.tabulates (hs : s.ReachedBy w operations)
    (hcount : Path.fileCount (filesAsked operations) ≤ UInt64.size) :
    s.images.Tabulates (filesAsked operations) := by
  obtain ⟨config, native, chain, rfl⟩ := hs
  have hkeeps := Session.keeps_afterAll (s := .start w config native chain)
    (OfflineImages.keeps_start config) (operations.map .operation) hcount
  rw [Session.afterAll_operations] at hkeeps
  exact hkeeps.tabulates

theorem ReachedBy.settled (hs : s.ReachedBy w operations)
    (hcount : operations.length < UInt64.size) :
    ∃ u : Uncached, s.Settled w u (fun _ => True) operations.length := by
  obtain ⟨config, native, chain, rfl⟩ := hs
  have hstart := settled_create w config native chain fun _ => True
  have hdone := hstart.performAll operations (by omega) fun _ _ _ => trivial
  rw [Nat.zero_add] at hdone
  exact ⟨_, hdone⟩

theorem LoadedFrom.sees {u : Uncached} (hu : u.Matches w s.live) {p : ProcessId} {b rva : UInt64}
    (h : s.LoadedFrom w p b rva path) : u.Sees w p b rva path :=
  ⟨(hu.attached_eq p).symm.trans h.attached, h.moduleBase?_eq, h.modulePath?_eq⟩

/-- How an image file is asked about: as the only module of its process, which has the path by which
the file was asked about first. -/
theorem ReachedBy.resolveInFile_fst (hs : s.ReachedBy w operations)
    (hcount : operations.length < UInt64.size) (path : String) (rva : UInt64) :
    ∃ u : Uncached, u.config = s.live.config ∧ u.native = none ∧ u.chain = .standard none ∧
      ∃ p processes, u.attached p = true ∧
        processes.layout p = OfflineImages.layoutOf (firstSpelling operations path) ∧
        (s.resolveInFile w.files path rva).1 = u.answer .symbol ⟨w.files, processes⟩ p rva := by
  obtain ⟨u, hu⟩ := hs.settled hcount
  have hsize := Nat.lt_of_le_of_lt hu.size_le hcount
  have hfiles := fileCount_append_le operations path
  have hbefore := hs.tabulates (Nat.le_trans (Path.fileCount_append_le _ [path]) (by omega))
  have htable := hbefore.processFor path (by omega)
  have hknown := s.images.get?_processFor path
  obtain ⟨first, hfirst, hlayout⟩ := htable.layout_eq _ _ hknown
  rw [spelling?_append_eq] at hfirst
  rw [← Option.some.inj hfirst] at hlayout
  exact ⟨OfflineImages.uncached u.config (s.images.processFor path).2, hu.live.config_eq.symm, rfl,
    rfl, (s.images.processFor path).1, (s.images.processFor path).2.processes,
    decide_eq_true (htable.number_lt _ _ hknown), hlayout,
    hu.images.resolve_fst hsize trivial rva⟩

/-- Between symbolizers with the same settings and files, an image gives the same symbol at the same
distance from its base, wherever it is loaded. It gives that symbol as a file, too, which no process
has loaded, if it is opened; the path that it was asked about first may lead nowhere instead, and
then it gives none. -/
theorem resolve_sameOutcome (hs : s.ReachedBy w operations) (ht : t.ReachedBy w' operations')
    (hnative : s.live.native = none) (hchain : s.live.chain = .standard none)
    (hfiles : w'.files = w.files) (hconfig : t.live.config = s.live.config)
    (hopen : Image.openFile w.files path s.live.imageLimit = .ok image) :
    (operations'.length < UInt64.size → ∀ rva, rva < OfflineImages.imageSpan →
      (w.files.entry? (firstSpelling operations' path) ≠ none →
        ∀ p b, s.LoadedFrom w p b rva path →
          SameOutcome (s.live.resolve w p (b + rva)).1 (t.resolveInFile w'.files path rva).1) ∧
      (w.files.entry? (firstSpelling operations' path) = none →
        (t.resolveInFile w'.files path rva).1 = .error .notFound)) ∧
    (t.live.native = none → t.live.chain = .standard none →
      ∀ p q b c rva, s.LoadedFrom w p b rva path → t.LoadedFrom w' q c rva path →
        SameOutcome (s.live.resolve w p (b + rva)).1 (t.live.resolve w' q (c + rva)).1) := by
  obtain ⟨u, hu⟩ := hs.matches
  have hchain' := hu.chain_eq.symm.trans hchain
  have hnative' := hu.native_eq.symm.trans hnative
  rw [LiveSymbolizer.imageLimit, hu.config_eq] at hopen
  constructor
  · intro hcount rva hrva
    obtain ⟨v, hvconfig, hvnative, hvchain, q, processes, hq, hlayout, hfile⟩ :=
      ht.resolveInFile_fst hcount path rva
    rw [hfile]
    constructor
    · intro hfound p b hp
      have hpath : w.files.entry? path ≠ none := Image.entry?_ne_none_of_openFile hopen
      have hmeaning := meaning_firstSpelling operations' path
      have hopen' := Image.openFile_withPath
        (Files.entry?_eq_of_meaning hmeaning hfound hpath) hopen
      rw [← hfiles] at hopen'
      have hsees : v.Sees ⟨w'.files, processes⟩ q 0 rva (firstSpelling operations' path) := by
        refine ⟨hq, ?_, OfflineImages.modulePath?_of_layout hlayout⟩
        rw [UInt64.zero_add]
        exact OfflineImages.moduleBase?_of_layout hlayout hrva
      have hsame := (hp.sees hu).sameOutcome hsees hchain' hvchain (hvnative.trans hnative'.symm)
        (hvconfig.trans (hconfig.trans hu.config_eq)) hmeaning.symm hopen hopen'
      rw [UInt64.zero_add] at hsame
      rwa [hu.resolve_fst]
    · intro hnone
      rw [← hfiles] at hnone
      exact Uncached.answer_of_unopened hvchain hq hlayout hrva hnone
  · intro hnative₂ hchain₂ p q b c rva hp hq
    obtain ⟨v, hv⟩ := ht.matches
    have hconfigs : v.config = u.config :=
      hv.config_eq.symm.trans (hconfig.trans hu.config_eq)
    have hopen' := Image.openFile_withPath rfl hopen
    rw [← hfiles] at hopen'
    rw [hu.resolve_fst, hv.resolve_fst]
    exact (hp.sees hu).sameOutcome (hq.sees hv) hchain' (hv.chain_eq.symm.trans hchain₂)
      ((hv.native_eq.symm.trans hnative₂).trans hnative'.symm) hconfigs rfl hopen hopen'

end Reached

/-- Two processes that have loaded the same file at different bases. -/
def loadedTwice : World where
  files := ({} : Files).write "a.exe" oneFunction
  processes := (({} : ProcessMap).addModule ⟨1⟩ 0x400000 0x2000 (some "a.exe")).addModule
    ⟨2⟩ 0x10000 0x2000 (some "a.exe")

/-- One process at two bases, and the file: first as it is, then asked about by another path. -/
theorem oneFunction_sameOutcome :
    let s := (create {} none none).performAll loadedTwice [.attach ⟨1⟩, .attach ⟨2⟩]
    let t := create {} none none
    let t' := t.performAll loadedTwice [.resolveInFile "a.exe/" 0x1014]
    (∃ image, Image.openFile loadedTwice.files "a.exe" s.live.imageLimit = .ok image) ∧
      SameOutcome (s.live.resolve loadedTwice ⟨1⟩ (0x400000 + 0x1014)).1
        (t.resolveInFile loadedTwice.files "a.exe" 0x1014).1 ∧
      SameOutcome (s.live.resolve loadedTwice ⟨1⟩ (0x400000 + 0x1014)).1
        (s.live.resolve loadedTwice ⟨2⟩ (0x10000 + 0x1014)).1 ∧
      (t.resolveInFile loadedTwice.files "a.exe" 0x1014).1.toOption.map (·.name) = some "main" ∧
      (t'.resolveInFile loadedTwice.files "a.exe" 0x1014).1 = .error .notFound := by
  intro s t t'
  have hs : s.ReachedBy loadedTwice [.attach ⟨1⟩, .attach ⟨2⟩] := ⟨{}, none, none, rfl⟩
  have ht : t.ReachedBy loadedTwice [] := ⟨{}, none, none, rfl⟩
  have ht' : t'.ReachedBy loadedTwice [.resolveInFile "a.exe/" 0x1014] := ⟨{}, none, none, rfl⟩
  have hfirst : s.LoadedFrom loadedTwice ⟨1⟩ 0x400000 0x1014 "a.exe" :=
    ⟨by decide, by decide, by decide⟩
  have hsecond : s.LoadedFrom loadedTwice ⟨2⟩ 0x10000 0x1014 "a.exe" :=
    ⟨by decide, by decide, by decide⟩
  obtain ⟨image, hopen, -⟩ : ∃ image,
      Image.openFile loadedTwice.files "a.exe" s.live.imageLimit = .ok image ∧
        image.path = some "a.exe" := by
    decide +kernel
  have hfile := resolve_sameOutcome hs ht rfl rfl rfl rfl hopen
  have hloaded := resolve_sameOutcome hs hs rfl rfl rfl rfl hopen
  have hmissed := resolve_sameOutcome hs ht' rfl rfl rfl rfl hopen
  refine ⟨⟨image, hopen⟩, ?_, ?_, by decide +kernel, ?_⟩
  · refine (hfile.1 (by decide) 0x1014 (by decide)).1 ?_ ⟨1⟩ 0x400000 hfirst
    exact Option.isSome_iff_ne_none.mp (by decide +kernel)
  · exact hloaded.2 rfl rfl ⟨1⟩ ⟨2⟩ 0x400000 0x10000 0x1014 hfirst hsecond
  · refine (hmissed.1 (by decide) 0x1014 (by decide)).2 ?_
    exact Option.isNone_iff_eq_none.mp (by decide +kernel)

/-- When a file was asked about by a path that leads nowhere, it is not found by its own path,
although the image that is loaded from it has the symbol. -/
theorem oneFunction_missed :
    let s := (create {} none none).performAll loadedTwice [.attach ⟨1⟩]
    let t := (create {} none none).performAll loadedTwice [.resolveInFile "a.exe/" 0x1014]
    s.LoadedFrom loadedTwice ⟨1⟩ 0x400000 0x1014 "a.exe" ∧
      (Image.openFile loadedTwice.files "a.exe" s.live.imageLimit).toBool = true ∧
      ((s.live.resolve loadedTwice ⟨1⟩ (0x400000 + 0x1014)).1.toOption.map fun info =>
        (info.name, info.displacement)) = some ("main", 4) ∧
      (t.resolveInFile loadedTwice.files "a.exe" 0x1014).1 = .error .notFound ∧
      ¬ SameOutcome (s.live.resolve loadedTwice ⟨1⟩ (0x400000 + 0x1014)).1
        (t.resolveInFile loadedTwice.files "a.exe" 0x1014).1 := by
  intro s t
  have hfound : ((s.live.resolve loadedTwice ⟨1⟩ (0x400000 + 0x1014)).1.toOption.map fun info =>
      (info.name, info.displacement)) = some ("main", 4) := by
    decide +kernel
  have hmissed : (t.resolveInFile loadedTwice.files "a.exe" 0x1014).1 = .error .notFound := by
    decide +kernel
  refine ⟨⟨by decide, by decide, by decide⟩, by decide +kernel, hfound, hmissed, ?_⟩
  rw [hmissed]
  intro hsame
  generalize (s.live.resolve loadedTwice ⟨1⟩ (0x400000 + 0x1014)).1 = answer at hfound hsame
  cases hsame
  cases hfound

end Symbolizer

end Postmortem
