import Postmortem.Proofs.Session.Replies
import Postmortem.Proofs.Symbolizer.ImageFiles

/-!
# Image files in a session

Questions about image files and those about processes have nothing to do with each other. Only the
choice how names are shown matters to both. So in every session the table of image files is what the
questions about them have made it, each file is read once, and either kind of question may be left
out without a change to the replies of the other.
-/
namespace Postmortem

namespace Call

/-- The path and the distance that a call asks about in an image file. -/
def fileQuestion? : Call → Option (String × UInt64)
  | .operation (.resolveInFile path rva) => some (path, rva)
  | _ => none

/-- Whether a call asks about image files. -/
def asksFiles : Call → Bool
  | .operation (.resolveInFile ..) | .offlineCounters => true
  | _ => false

/-- Whether a call has to do with image files: it asks about them, changes files, or chooses how
names are shown. -/
def concernsFiles : Call → Bool
  | .operation (.resolveInFile ..) | .operation (.setDemangle _) | .offlineCounters
  | .changeFiles _ => true
  | _ => false

end Call

/-- The name that a reply shows, when it is about a symbol that was found. -/
def Reply.shownName? : Reply → Option String
  | .symbol (.ok info) => some info.name
  | _ => none

namespace Symbolizer

variable (s : Symbolizer)

/-- The image files are those of the settings alone as long as none was asked about. -/
theorem images_with_live {live : LiveSymbolizer} (h : live.config = s.live.config) :
    ({ s with live } : Symbolizer).images = s.images := by
  rw [images, images, h]

theorem images_setDemangle (demangle : Bool) :
    (s.setDemangle demangle).images = s.images.setDemangle demangle := by
  rw [images, images, setDemangle]
  cases s.offline with
  | none => rfl
  | some o => rfl

theorem offlineCounters_eq : s.offlineCounters = s.images.symbolizer.cache.counters := by
  rw [offlineCounters, images]
  cases s.offline with
  | none => rfl
  | some o => rfl

/-- What is done with processes leaves the image files alone. -/
theorem images_perform (w : World) (operation : Operation)
    (hfile : ∀ path rva, operation ≠ .resolveInFile path rva)
    (hdemangle : ∀ demangle, operation ≠ .setDemangle demangle) :
    (s.perform w operation).images = s.images := by
  have hkept := keptByLookups_settings w LiveSymbolizer.config (fun _ _ => rfl) s.live.config
  cases operation with
  | attach | detach | moduleLoaded | moduleUnloaded | addSource => exact s.images_with_live rfl
  | lookupModule p a => exact s.images_with_live (hkept.lookup _ p a rfl)
  | ask k p a => exact s.images_with_live (hkept.ask k _ p a rfl)
  | report config request => exact s.images_with_live (hkept.report config request _ rfl)
  | resolveInFile path rva => exact absurd rfl (hfile path rva)
  | setDemangle demangle => exact absurd rfl (hdemangle demangle)

end Symbolizer

namespace Session

/-- What a call does to the image files. -/
theorem images_after_cases (s : Session) (call : Call) :
    (∃ path rva, call = .operation (.resolveInFile path rva) ∧
      (s.after call).symbolizer.images = (s.symbolizer.images.resolve s.world.files path rva).2) ∨
    (∃ demangle, call = .operation (.setDemangle demangle) ∧
      (s.after call).symbolizer.images = s.symbolizer.images.setDemangle demangle) ∨
    (call.fileQuestion? = none ∧ (∀ demangle, call ≠ .operation (.setDemangle demangle)) ∧
      (s.after call).symbolizer.images = s.symbolizer.images) := by
  cases call with
  | operation operation =>
    cases operation with
    | resolveInFile path rva => exact .inl ⟨path, rva, rfl, rfl⟩
    | setDemangle demangle =>
      exact .inr (.inl ⟨demangle, rfl, s.symbolizer.images_setDemangle demangle⟩)
    | attach | detach | moduleLoaded | moduleUnloaded | lookupModule | ask | addSource | report =>
      refine .inr (.inr ⟨rfl, by rintro _ ⟨⟩, ?_⟩)
      exact s.symbolizer.images_perform s.world _ (by rintro _ _ ⟨⟩) (by rintro _ ⟨⟩)
  | loadedFrom =>
    exact .inr (.inr ⟨rfl, by rintro _ ⟨⟩, s.symbolizer.images_with_live rfl⟩)
  | _ => exact .inr (.inr ⟨rfl, by rintro _ ⟨⟩, rfl⟩)

/-- The questions about image files among some calls. -/
def fileQuestions (calls : List Call) : List (String × UInt64) :=
  calls.filterMap Call.fileQuestion?

/-- The paths of the image files that some calls ask about. -/
def filesAsked (calls : List Call) : List String := (fileQuestions calls).map Prod.fst

theorem fileQuestions_append (first second : List Call) :
    fileQuestions (first ++ second) = fileQuestions first ++ fileQuestions second :=
  List.filterMap_append

theorem filesAsked_append (first second : List Call) :
    filesAsked (first ++ second) = filesAsked first ++ filesAsked second := by
  rw [filesAsked, fileQuestions_append, List.map_append]
  rfl

theorem fileQuestions_of_none {call : Call} (h : call.fileQuestion? = none) :
    fileQuestions [call] = [] :=
  List.filterMap_cons_none h

theorem fileCount_filesAsked_le (first second : List Call) :
    Path.fileCount (filesAsked first) ≤ Path.fileCount (filesAsked (first ++ second)) := by
  rw [filesAsked_append]
  exact Path.fileCount_append_le _ _

section Run

variable {limit : Nat} {s : Session}

/-- After every run the image files are kept that its calls have asked about. -/
theorem keeps_afterAll (h : s.symbolizer.images.Keeps limit [] []) (calls : List Call)
    (hcount : Path.fileCount (filesAsked calls) ≤ UInt64.size) :
    (s.afterAll calls).symbolizer.images.Keeps limit (filesAsked calls) (fileQuestions calls) := by
  induction calls using List.reverseRecOn with
  | nil => exact h
  | append_singleton before call ih =>
    have hbefore := ih (Nat.le_trans (fileCount_filesAsked_le before [call]) hcount)
    have hafter : s.afterAll (before ++ [call]) = (s.afterAll before).after call :=
      s.afterAll_append before [call]
    have hnone : call.fileQuestion? = none → ∀ {o : OfflineImages},
        o.Keeps limit (filesAsked before) (fileQuestions before) →
        o.Keeps limit (filesAsked (before ++ [call])) (fileQuestions (before ++ [call])) := by
      intro hcall o ho
      rw [filesAsked, fileQuestions_append, fileQuestions_of_none hcall, List.append_nil]
      exact ho
    rw [hafter]
    obtain ⟨path, rva, rfl, himages⟩ | ⟨demangle, rfl, himages⟩ | ⟨hcall, -, himages⟩ :=
      (s.afterAll before).images_after_cases call
    · rw [filesAsked_append] at hcount ⊢
      rw [fileQuestions_append, himages]
      exact hbefore.resolve _ path rva hcount
    · rw [himages]
      exact hnone rfl (hbefore.setDemangle demangle)
    · rw [himages]
      exact hnone hcall hbefore

/-- What was read of an image file stays, whatever is called. -/
theorem hasRead_afterAll {meaning : Path.Meaning} {p : ProcessId} {m : ModuleImage}
    (h : s.symbolizer.images.HasRead meaning p m) (calls : List Call) :
    (s.afterAll calls).symbolizer.images.HasRead meaning p m := by
  induction calls generalizing s with
  | nil => exact h
  | cons call rest ih =>
    refine ih (s := s.after call) ?_
    obtain ⟨path, rva, -, himages⟩ | ⟨demangle, -, himages⟩ | ⟨-, -, himages⟩ :=
      s.images_after_cases call
    · rw [himages]
      exact h.resolve s.world.files path rva
    · rw [himages]
      exact h.setDemangle demangle
    · rw [himages]
      exact h

end Run

/-- How a session keeps the image files that its calls ask about, when images of at most `limit`
bytes are read. -/
structure KeepsImageFiles (limit : Nat) (s : Session) (calls : List Call) : Prop where
  /-- Every file has a process of its own, in which there is nothing else. -/
  tabulates : (s.afterAll calls).symbolizer.images.Tabulates (filesAsked calls)
  indexesBuilt_le : (s.afterAll calls).symbolizer.offlineCounters.indexesBuilt ≤
    (s.afterAll calls).symbolizer.offlineCounters.imagesOpened
  imagesOpened_le : (s.afterAll calls).symbolizer.offlineCounters.imagesOpened ≤
    (s.afterAll calls).symbolizer.offlineCounters.modulesCreated
  modulesCreated_le : (s.afterAll calls).symbolizer.offlineCounters.modulesCreated ≤
    Path.fileCount (filesAsked calls)
  /-- A file is read for the first question that lies within the image. This question and all later
  ones are answered from what was in the file then, though it may be replaced or removed meanwhile,
  and no later one reads anything. -/
  readOnce : ∀ before path rva later,
    calls = before ++ .operation (.resolveInFile path rva) :: later →
    rva < OfflineImages.imageSpan →
    (∀ question ∈ fileQuestions before, question.2 < OfflineImages.imageSpan →
      Path.meaning question.1 ≠ Path.meaning path) →
    ∃ p spelling,
      (s.afterAll calls).symbolizer.images.byPath.get? (Path.meaning path) = some p ∧
      Path.spelling? (filesAsked calls) (Path.meaning path) = some spelling ∧
      let first := s.afterAll before
      let m := ModuleImage.ofFile first.world.files limit spelling
      first.reply (.operation (.resolveInFile path rva)) =
          .symbol (first.symbolizer.images.answerFrom p spelling m rva) ∧
        (s.afterAll calls).symbolizer.images.AnswersFrom (Path.meaning path) p spelling m
  /-- A question that lies beyond the largest image fails. -/
  outside : ∀ before path rva later,
    calls = before ++ .operation (.resolveInFile path rva) :: later →
    OfflineImages.imageSpan ≤ rva →
    (s.afterAll before).reply (.operation (.resolveInFile path rva)) =
      .symbol (.error (.noModule rva))
  /-- Questions about image files may be left out or added. Nothing that is kept of processes
  changes, and neither does a reply to another call. -/
  processes_apart : ∀ others : List Call,
    others.filter (fun call => !call.asksFiles) = calls.filter (fun call => !call.asksFiles) →
    (s.replies others).filter (fun answered => !answered.1.asksFiles) =
        (s.replies calls).filter (fun answered => !answered.1.asksFiles) ∧
      (s.afterAll others).symbolizer.live = (s.afterAll calls).symbolizer.live
  /-- What is done with processes may be left out or added. Nothing that is kept of image files
  changes, and neither does a reply to a question about them. -/
  files_apart : ∀ others : List Call,
    others.filter Call.concernsFiles = calls.filter Call.concernsFiles →
    (s.replies others).filter (fun answered => answered.1.concernsFiles) =
        (s.replies calls).filter (fun answered => answered.1.concernsFiles) ∧
      (s.afterAll others).symbolizer.images = (s.afterAll calls).symbolizer.images

/-- Questions about image files change nothing else, and no other reply depends on them. -/
theorem corresponds_live : Corresponds (fun call => !call.asksFiles)
    (fun s t => (s.world, s.symbolizer.live) = (t.world, t.symbolizer.live)) Eq := by
  refine .of_part _ ?_ ?_
  · rintro ⟨w, live, o₁⟩ ⟨_, _, o₂⟩ call hcall ⟨⟩
    cases call with
    | operation operation =>
      cases operation with
      | resolveInFile path rva => cases hcall
      | _ => exact ⟨rfl, rfl⟩
    | offlineCounters => cases hcall
    | _ => exact ⟨rfl, rfl⟩
  · intro s call hcall
    cases call with
    | operation operation =>
      cases operation with
      | resolveInFile path rva => rfl
      | _ => exact absurd rfl hcall
    | offlineCounters => rfl
    | _ => exact absurd rfl hcall

/-- What has nothing to do with image files leaves them alone, and no reply about them depends on
it. -/
theorem corresponds_images : Corresponds Call.concernsFiles
    (fun s t => (s.world.files, s.symbolizer.images) = (t.world.files, t.symbolizer.images))
    Eq := by
  refine .of_part (fun s => (s.world.files, s.symbolizer.images)) ?_ ?_
  · intro s t call hcall hsame
    obtain ⟨hfiles, himages⟩ := Prod.mk.inj hsame
    cases call with
    | operation operation =>
      cases operation with
      | resolveInFile path rva =>
        have hresolve : s.symbolizer.images.resolve s.world.files path rva =
            t.symbolizer.images.resolve t.world.files path rva := by rw [hfiles, himages]
        have hanswer := congrArg (fun x => Reply.symbol x.1) hresolve
        have hkept := congrArg Prod.snd hresolve
        exact ⟨hanswer, Prod.ext hfiles hkept⟩
      | setDemangle demangle =>
        have hset := congrArg (OfflineImages.setDemangle · demangle) himages
        rw [← Symbolizer.images_setDemangle, ← Symbolizer.images_setDemangle] at hset
        exact ⟨rfl, Prod.ext hfiles hset⟩
      | _ => cases hcall
    | offlineCounters =>
      refine ⟨?_, hsame⟩
      rw [reply, reply, Symbolizer.offlineCounters_eq, Symbolizer.offlineCounters_eq, himages]
    | changeFiles change => exact ⟨rfl, Prod.ext (congrArg change hfiles) himages⟩
    | _ => cases hcall
  · intro s call hcall
    refine Prod.ext ?_ ?_
    · cases call with
      | changeFiles change => exact absurd rfl hcall
      | _ => rfl
    · obtain ⟨path, rva, rfl, -⟩ | ⟨demangle, rfl, -⟩ | ⟨-, -, himages⟩ := s.images_after_cases call
      · exact absurd rfl hcall
      · exact absurd rfl hcall
      · exact himages

section Questions

variable {limit : Nat} {s : Session} (h : s.symbolizer.images.Keeps limit [] [])
  {before later : List Call} {path : String} {rva : UInt64}
  (hcount : Path.fileCount
    (filesAsked (before ++ .operation (.resolveInFile path rva) :: later)) ≤ UInt64.size)

theorem filesAsked_of_question :
    filesAsked (before ++ .operation (.resolveInFile path rva) :: later) =
      filesAsked before ++ [path] ++ filesAsked later := by
  rw [filesAsked_append, List.append_assoc]
  rfl

include h hcount

/-- The image files as they are kept when a question has found the process of its file. -/
theorem keeps_processFor :
    ((s.afterAll before).symbolizer.images.processFor path).2.Keeps limit
      (filesAsked before ++ [path]) (fileQuestions before) := by
  rw [filesAsked_of_question] at hcount
  have hreached := Nat.le_trans (Path.fileCount_append_le _ (filesAsked later)) hcount
  have hbefore := keeps_afterAll h before
    (Nat.le_trans (Path.fileCount_append_le _ [path]) hreached)
  exact hbefore.processFor path hreached

theorem reply_outside (hrva : OfflineImages.imageSpan ≤ rva) :
    (s.afterAll before).reply (.operation (.resolveInFile path rva)) =
      .symbol (.error (.noModule rva)) := by
  have hkeeps := keeps_processFor h hcount
  have hp := (s.afterAll before).symbolizer.images.get?_processFor path
  exact congrArg Reply.symbol (hkeeps.ask_outside hp (s.afterAll before).world.files hrva)

/-- The first question within an image file is answered from what is in the file, and the later ones
from the same. -/
theorem answers_of_first (hrva : rva < OfflineImages.imageSpan)
    (hfirst : ∀ question ∈ fileQuestions before, question.2 < OfflineImages.imageSpan →
      Path.meaning question.1 ≠ Path.meaning path) :
    let first := s.afterAll before
    let last := s.afterAll (before ++ .operation (.resolveInFile path rva) :: later)
    ∃ p spelling, last.symbolizer.images.byPath.get? (Path.meaning path) = some p ∧
      Path.spelling? (filesAsked (before ++ .operation (.resolveInFile path rva) :: later))
        (Path.meaning path) = some spelling ∧
      first.reply (.operation (.resolveInFile path rva)) =
        .symbol (first.symbolizer.images.answerFrom p spelling
          (.ofFile first.world.files limit spelling) rva) ∧
      last.symbolizer.images.AnswersFrom (Path.meaning path) p spelling
        (.ofFile first.world.files limit spelling) := by
  intro first last
  have hkeeps := keeps_processFor h hcount
  have hp := first.symbolizer.images.get?_processFor path
  obtain ⟨spelling, hspelling, -⟩ := hkeeps.tabulates.layout_eq _ _ hp
  have hanswer := hkeeps.ask_fst hp first.world.files hrva hspelling
  have hread := hkeeps.hasRead_ask hp first.world.files hrva
  rw [hkeeps.contentsAt_of_unread hp first.world.files hspelling hfirst] at hanswer hread
  rw [OfflineImages.answerFrom_processFor] at hanswer
  -- What the first question has read is still there after all other calls.
  have hlast := hasRead_afterAll (s := first.after (.operation (.resolveInFile path rva)))
    hread later
  have hafter : (first.after (.operation (.resolveInFile path rva))).afterAll later = last :=
    (s.afterAll_append before (.operation (.resolveInFile path rva) :: later)).symm
  rw [hafter] at hlast
  have hstill :
      Path.spelling? (filesAsked (before ++ .operation (.resolveInFile path rva) :: later))
        (Path.meaning path) = some spelling := by
    rw [filesAsked_of_question]
    exact Path.spelling?_append_of_some hspelling _
  exact ⟨_, spelling, hlast.known, hstill, congrArg Reply.symbol hanswer,
    (keeps_afterAll h _ hcount).answersFrom hlast hstill⟩

end Questions

/-- In every session, however its calls are mixed, every image file has a process of its own and is
read once, and the questions about image files and those about processes do not touch each other. -/
theorem afterAll_keepsImageFiles (world : World) (config : Config)
    (native : Option NativeSymbolizer) (chain : Option SourceChain) (calls : List Call)
    (hcount : Path.fileCount (filesAsked calls) ≤ UInt64.size) :
    KeepsImageFiles config.images.maxImageSize.toNat (start world config native chain) calls := by
  have hstart : (start world config native chain).symbolizer.images.Keeps
      config.images.maxImageSize.toNat [] [] := OfflineImages.keeps_start config
  generalize start world config native chain = s at hstart
  have hkeeps := keeps_afterAll hstart calls hcount
  have hcounters := (s.afterAll calls).symbolizer.offlineCounters_eq
  refine ⟨hkeeps.tabulates, ?_, ?_, ?_, ?_, ?_, ?_, ?_⟩
  · rw [hcounters]
    exact hkeeps.accounts.indexes_le
  · rw [hcounters]
    exact Nat.le_trans (Nat.le_add_right _ _) hkeeps.accounts.images_le
  · rw [hcounters]
    exact hkeeps.modulesCreated_le
  · rintro before path rva later rfl hrva hfirst
    exact answers_of_first hstart hcount hrva hfirst
  · rintro before path rva later rfl hrva
    exact reply_outside hstart hcount hrva
  · intro others hothers
    have hlast := (corresponds_live.replies (s := s) (t := s) rfl others calls hothers).2
    exact ⟨corresponds_live.replies_eq rfl others calls hothers, (Prod.mk.inj hlast).2⟩
  · intro others hothers
    have hlast := (corresponds_images.replies (s := s) (t := s) rfl others calls hothers).2
    exact ⟨corresponds_images.replies_eq rfl others calls hothers, (Prod.mk.inj hlast).2⟩

end Session

/-- An image with one section, at 0x1000, and one function in it, 16 bytes from its start. -/
def Symbolizer.oneFunction : Bytes :=
  ⟨⟨[0x4D, 0x5A] ++ List.replicate 58 0 ++ [0x40, 0, 0, 0] ++ Headers.signature ++
    [0x4C, 0x01, 1, 0, 0, 0, 0, 0, 224, 0, 0, 0, 1, 0, 0, 0, 96, 0, 0, 0] ++
    [0x0B, 0x01] ++ List.replicate 94 0 ++
    -- the section `.text`
    [0x2E, 0x74, 0x65, 0x78, 0x74, 0, 0, 0, 0, 0x10, 0, 0, 0, 0x10, 0, 0] ++ List.replicate 24 0 ++
    -- the function `main`, and a string table that is empty
    [0x6D, 0x61, 0x69, 0x6E, 0, 0, 0, 0, 0x10, 0, 0, 0, 1, 0, 0x20, 0, 2, 0] ++ [4, 0, 0, 0]⟩⟩

namespace Session

/-- An image file that no process has loaded. -/
def worldOfFiles : World where
  files := ({} : Files).write "a.dll" Symbolizer.oneFunction

/-- Two spellings of one image file and another file that is not there, with a question about a
process between them and a change of the files. -/
def callsOfFiles : List Call :=
  [.operation (.resolveInFile "a.dll" 0x1014), .operation (.attach ⟨1⟩),
    .operation (.ask .symbol ⟨1⟩ 0x1010), .changeFiles fun files => (files.remove "a.dll").2,
    .operation (.resolveInFile "b.dll" 0x10), .operation (.resolveInFile "a.dll/." 0x1014),
    .operation (.resolveInFile "a.dll/." 0x100000000)]

/-- The file that was removed is still answered from, by every path that means it. -/
theorem callsOfFiles_kept :
    Path.fileCount (filesAsked callsOfFiles) ≤ UInt64.size ∧
      KeepsImageFiles 0x40000000 (start worldOfFiles {} none none) callsOfFiles ∧
      ((start worldOfFiles {} none none).replies callsOfFiles).filterMap (·.2.shownName?) =
        ["main", "main"] :=
  ⟨by decide, afterAll_keepsImageFiles worldOfFiles {} none none callsOfFiles (by decide),
    by decide +kernel⟩

end Session

end Postmortem
