import Postmortem.Proofs.Session.Accounting
import Postmortem.Proofs.Session.Stability
import Postmortem.Proofs.Symbolizer.FileTable

/-!
# What is kept of image files

What an image file holds is read for the first question that lies within it. It is kept from then
on, since nothing takes a record of an image file away. So there is at most one record for each
file, and at most one image is opened for it.
-/
namespace Postmortem

namespace OfflineImages

theorem get?_processFor_of_some {o : OfflineImages} {meaning : Path.Meaning} {p : ProcessId}
    (hp : o.byPath.get? meaning = some p) (path : String) :
    (o.processFor path).2.byPath.get? meaning = some p := by
  cases hpath : o.byPath.get? (Path.meaning path) with
  | some q =>
    rw [processFor, hpath]
    exact hp
  | none =>
    have hmeaning : meaning ≠ Path.meaning path := by
      rintro rfl
      rw [hpath] at hp
      cases hp
    rw [o.processFor_of_new path hpath, Table.get?_set, if_neg hmeaning, hp]

/-- Chooses whether names are shown in readable form. -/
def setDemangle (o : OfflineImages) (demangle : Bool) : OfflineImages :=
  { o with symbolizer := o.symbolizer.setDemangle demangle }

/-- What is kept of image files that were asked about under some paths, when these are the questions
that were asked, each with a path and a distance. -/
structure Keeps (limit : Nat) (paths : List String) (questions : List (String × UInt64))
    (o : OfflineImages) : Prop where
  tabulates : o.Tabulates paths
  chain_eq : o.symbolizer.chain = .standard none
  /-- A record is at address zero and has the file of its process, which a question reached. -/
  record : ∀ p b r, o.symbolizer.cache.record? p b = some r →
    b = 0 ∧ r.path = o.processes.modulePath? p 0 ∧
      ∃ question ∈ questions, question.2 < imageSpan ∧
        o.byPath.get? (Path.meaning question.1) = some p
  accounts : o.symbolizer.Accounts limit
  /-- No record was dropped. -/
  balanced : Session.Balanced 0 0 o.symbolizer

end OfflineImages

theorem Session.Balanced.attach {made count : Nat} {s : LiveSymbolizer}
    (h : Balanced made count s) (p : ProcessId) : Balanced made count (s.attach p) := by
  have hcounters := s.cache.counters_attach p
  have htotal := s.cache.total_attach p fun _ => 1
  rw [← ModuleCache.recordCount_eq_total, ← ModuleCache.recordCount_eq_total] at htotal
  refine ⟨h.keyed.attach, ?_⟩
  change (s.cache.attach p).counters.modulesCreated + count =
    made + (s.cache.attach p).recordCount
  rw [hcounters, htotal, h.made_eq]

namespace OfflineImages

theorem keeps_start (config : Config) :
    (start config).Keeps config.images.maxImageSize.toNat [] [] where
  tabulates := tabulates_start config
  chain_eq := rfl
  record _ _ _ h := by cases h
  accounts := by
    refine ⟨ModuleCache.keyed_empty, rfl, Nat.le_refl _, Nat.le_refl _, ?_⟩
    intro p b r m hr
    cases hr
  balanced := ⟨ModuleCache.keyed_empty, rfl⟩

namespace Keeps

variable {limit : Nat} {paths : List String} {questions : List (String × UInt64)}
  {o : OfflineImages} (h : o.Keeps limit paths questions)

include h

theorem processFor (path : String) (hcount : Path.fileCount (paths ++ [path]) ≤ UInt64.size) :
    (o.processFor path).2.Keeps limit (paths ++ [path]) questions := by
  have htabulates := h.tabulates.processFor path hcount
  cases hp : o.byPath.get? (Path.meaning path) with
  | some p =>
    rw [OfflineImages.processFor, hp] at htabulates ⊢
    exact ⟨htabulates, h.chain_eq, h.record, h.accounts, h.balanced⟩
  | none =>
    have hsize := h.tabulates.size_lt_of_new hp hcount
    have hkept : ∀ meaning p, o.byPath.get? meaning = some p →
        (o.processFor path).2.byPath.get? meaning = some p := fun meaning p hp =>
      get?_processFor_of_some hp path
    rw [o.processFor_of_new path hp] at htabulates hkept ⊢
    refine ⟨htabulates, h.chain_eq, ?_, h.accounts.attach o.next, h.balanced.attach o.next⟩
    intro p b r hr
    rw [LiveSymbolizer.attach, ModuleCache.record?_attach] at hr
    obtain ⟨hb, hpath, question, hquestion, hspan, hknown⟩ := h.record p b r hr
    have hlayout := o.layout_processesWith path p (h.tabulates.ne_next hsize hknown)
    refine ⟨hb, ?_, question, hquestion, hspan, hkept _ p hknown⟩
    rw [hpath]
    exact (ProcessMap.modulePath?_congr hlayout 0).symm

theorem recordAt_path (files : Files) (p : ProcessId) :
    (o.symbolizer.recordAt ⟨files, o.processes⟩ p 0).path = o.processes.modulePath? p 0 := by
  rw [LiveSymbolizer.recordAt, ModuleCache.loaded]
  cases hr : o.symbolizer.cache.record? p 0 with
  | some r => exact (h.record p 0 r hr).2.1
  | none => rfl

section Ask

variable {path : String} {p : ProcessId} (hp : o.byPath.get? (Path.meaning path) = some p)
  (files : Files) (rva : UInt64)

include hp

/-- A question leads to the image, or beyond it to nothing. -/
theorem moduleBase?_eq :
    o.processes.moduleBase? p rva = if rva < imageSpan then some 0 else none := by
  obtain ⟨first, -, hlayout⟩ := h.tabulates.layout_eq _ p hp
  split
  · next hrva => exact moduleBase?_of_layout hlayout hrva
  · next hrva => exact moduleBase?_eq_none_of_layout hlayout (UInt64.not_lt.mp hrva)

theorem isAttached : o.symbolizer.cache.isAttached p = true :=
  (h.tabulates.attached_iff p).mpr ⟨_, hp⟩

theorem ask :
    ({ o with symbolizer := (o.symbolizer.resolve ⟨files, o.processes⟩ p rva).2 } :
      OfflineImages).Keeps limit paths (questions ++ [(path, rva)]) := by
  let w : World := ⟨files, o.processes⟩
  have hattached : ∀ q, (o.symbolizer.resolve w p rva).2.cache.isAttached q =
      o.symbolizer.cache.isAttached q := by
    intro q
    obtain hsame | ⟨b, decoded, -, -, hasked⟩ := Question.symbol.ask_snd_cases w p rva o.symbolizer
    · exact congrArg (·.cache.isAttached q) hsame
    · exact (congrArg (·.cache.isAttached q) hasked).trans (o.symbolizer.asked_isAttached ..)
  have haccounts := (Session.kept_accounts.byLookups w).ask .symbol _ p rva h.accounts
  have hbalanced := (Session.keptByLookups_balanced w 0 0).ask .symbol _ p rva h.balanced
  have hold : ∀ q b r, o.symbolizer.cache.record? q b = some r →
      b = 0 ∧ r.path = o.processes.modulePath? q 0 ∧
        ∃ question ∈ questions ++ [(path, rva)], question.2 < imageSpan ∧
          o.byPath.get? (Path.meaning question.1) = some q := by
    intro q b r hr
    obtain ⟨hb, hpath, question, hquestion, hrest⟩ := h.record q b r hr
    exact ⟨hb, hpath, question, List.mem_append_left _ hquestion, hrest⟩
  obtain hsame | ⟨b, decoded, hpattached, hbase, hasked⟩ :=
    Question.symbol.ask_snd_cases w p rva o.symbolizer
  · change (o.symbolizer.resolve w p rva).2 = o.symbolizer at hsame
    rw [hsame]
    exact ⟨h.tabulates, h.chain_eq, hold, h.accounts, h.balanced⟩
  · -- The question leads to the image, so it lies within it.
    change o.processes.moduleBase? p rva = some b at hbase
    rw [h.moduleBase?_eq hp rva] at hbase
    split at hbase
    · next hrva =>
      obtain rfl := Option.some.inj hbase
      change (o.symbolizer.resolve w p rva).2 = _ at hasked
      refine ⟨h.tabulates.with_symbolizer hattached, ?_, ?_, haccounts, hbalanced⟩
      · dsimp only
        rw [hasked]
        exact h.chain_eq
      · intro q a r hr
        dsimp only at hr
        rw [hasked, o.symbolizer.asked_record? w p q a 0 decoded h.accounts.keyed hpattached] at hr
        split at hr
        · next hqa =>
          obtain ⟨rfl, rfl⟩ := hqa
          rw [← Option.some.inj hr]
          exact ⟨rfl, h.recordAt_path files q, (path, rva), by simp, hrva, hp⟩
        · exact hold q a r hr
    · cases hbase

end Ask

theorem resolve (files : Files) (path : String) (rva : UInt64)
    (hcount : Path.fileCount (paths ++ [path]) ≤ UInt64.size) :
    (o.resolve files path rva).2.Keeps limit (paths ++ [path]) (questions ++ [(path, rva)]) :=
  (h.processFor path hcount).ask (o.get?_processFor path) files rva

theorem setDemangle (demangle : Bool) : (o.setDemangle demangle).Keeps limit paths questions where
  tabulates := h.tabulates.with_symbolizer fun _ => rfl
  chain_eq := h.chain_eq
  record := h.record
  accounts := Session.kept_accounts.setDemangle _ demangle h.accounts
  balanced := ⟨h.balanced.keyed, h.balanced.made_eq⟩

/-- There is at most one record for each file, and none was dropped. -/
theorem modulesCreated_le : o.symbolizer.cache.counters.modulesCreated ≤ Path.fileCount paths := by
  have hrecords : ∀ e ∈ o.symbolizer.cache.processes.entries, e.2.size ≤ 1 := by
    intro e he
    refine e.2.size_le_one 0 ?_
    intro b r hr
    have hprocess := o.symbolizer.cache.processes.get?_of_mem he
    have hrecord : o.symbolizer.cache.record? e.1 b = some r := by
      rw [ModuleCache.record?, hprocess]
      exact hr
    exact (h.record e.1 b r hrecord).1
  have hattached : (o.symbolizer.cache.processes.entries.map Prod.fst).toFinset ⊆
      (o.byPath.entries.map Prod.snd).toFinset := by
    intro p hp
    obtain ⟨records, hrecords⟩ :=
      (o.symbolizer.cache.processes.mem_keys_iff p).mp (List.mem_toFinset.mp hp)
    obtain ⟨meaning, hmeaning⟩ := (h.tabulates.attached_iff p).mp
      ((o.symbolizer.cache.isAttached_iff p).mpr ⟨records, hrecords⟩)
    rw [List.mem_toFinset]
    exact List.mem_map.mpr ⟨(meaning, p), (o.byPath.mem_entries_iff _).mpr hmeaning, rfl⟩
  calc o.symbolizer.cache.counters.modulesCreated
      = o.symbolizer.cache.recordCount := by simpa using h.balanced.made_eq
    _ ≤ o.symbolizer.cache.processes.size := Table.total_le_size _ _ hrecords
    _ = (o.symbolizer.cache.processes.entries.map Prod.fst).toFinset.card := Table.size_eq_card _
    _ ≤ (o.byPath.entries.map Prod.snd).toFinset.card := Finset.card_le_card hattached
    _ ≤ o.byPath.size := (List.toFinset_card_le _).trans_eq (List.length_map _)
    _ = Path.fileCount paths := h.tabulates.size_eq

end Keeps

/-- What is known at a distance from the start of an image file that holds `m`. -/
def answerFrom (o : OfflineImages) (p : ProcessId) (spelling : String) (m : ModuleImage)
    (rva : UInt64) : Except LookupError SymbolInfo :=
  o.symbolizer.outcome { base := 0, path := some spelling }
    ((SourceChain.standard none).resolve? ⟨p, rva, 0, m⟩)

theorem answerFrom_processFor (o : OfflineImages) (path : String) :
    (o.processFor path).2.answerFrom = o.answerFrom := by
  cases hp : o.byPath.get? (Path.meaning path) with
  | some p => rw [processFor, hp]
  | none =>
    rw [o.processFor_of_new path hp]
    rfl

/-- All questions that lie within an image file are answered from `m`, whatever is in the file then,
and nothing is read for them. -/
def AnswersFrom (o : OfflineImages) (meaning : Path.Meaning) (p : ProcessId) (spelling : String)
    (m : ModuleImage) : Prop :=
  ∀ (files : Files) (path : String) (rva : UInt64), Path.meaning path = meaning →
    rva < imageSpan →
    (o.resolve files path rva).1 = o.answerFrom p spelling m rva ∧
      (o.resolve files path rva).2.symbolizer.cache.counters.imagesOpened =
        o.symbolizer.cache.counters.imagesOpened ∧
      (o.resolve files path rva).2.symbolizer.cache.counters.indexesBuilt =
        o.symbolizer.cache.counters.indexesBuilt

/-- An image file was read, and held `m` then. -/
structure HasRead (meaning : Path.Meaning) (p : ProcessId) (m : ModuleImage) (o : OfflineImages) :
    Prop where
  known : o.byPath.get? meaning = some p
  held : ∃ r, o.symbolizer.Holds p 0 r ∧ r.contents = some m

theorem processFor_of_known {o : OfflineImages} {path : String} {p : ProcessId}
    (hp : o.byPath.get? (Path.meaning path) = some p) : o.processFor path = (p, o) := by
  rw [processFor, hp]

namespace HasRead

variable {meaning : Path.Meaning} {p : ProcessId} {m : ModuleImage} {o : OfflineImages}
  (h : o.HasRead meaning p m)

include h

theorem processFor (path : String) : (o.processFor path).2.HasRead meaning p m := by
  have hknown := get?_processFor_of_some h.known path
  obtain ⟨r, hheld, hr⟩ := h.held
  cases hpath : o.byPath.get? (Path.meaning path) with
  | some q =>
    rw [processFor_of_known hpath]
    exact h
  | none =>
    rw [o.processFor_of_new path hpath] at hknown ⊢
    exact ⟨hknown, r, hheld.attach o.next, hr⟩

/-- What was read of an image file stays. -/
theorem resolve (files : Files) (path : String) (rva : UInt64) :
    (o.resolve files path rva).2.HasRead meaning p m := by
  have hfound := h.processFor path
  obtain ⟨r, hheld, hr⟩ := hfound.held
  exact ⟨hfound.known, r, (Session.keptByLookups_holds _ p 0 r).ask .symbol _ _ rva hheld, hr⟩

theorem setDemangle (demangle : Bool) : (o.setDemangle demangle).HasRead meaning p m := by
  obtain ⟨r, hheld, hr⟩ := h.held
  exact ⟨h.known, r, ⟨hheld.keyed, hheld.grown⟩, hr⟩

end HasRead

/-- The questions about image files as those about processes in a session. -/
def asSession (o : OfflineImages) (files : Files) : Session :=
  ⟨⟨files, o.processes⟩, { live := o.symbolizer }⟩

namespace Keeps

variable {limit : Nat} {paths : List String} {questions : List (String × UInt64)}
  {o : OfflineImages} (h : o.Keeps limit paths questions) {path first : String} {p : ProcessId}
  {rva : UInt64}

include h

/-- What was read of an image file is what all questions are answered from. -/
theorem answersFrom {meaning : Path.Meaning} {m : ModuleImage} (hread : o.HasRead meaning p m)
    (hfirst : Path.spelling? paths meaning = some first) : o.AnswersFrom meaning p first m := by
  rintro files path rva rfl hrva
  obtain ⟨r, hheld, hr⟩ := hread.held
  obtain ⟨later, hlater, hgrown⟩ := hheld.grown
  obtain ⟨spelling, hspelling, hlayout⟩ := h.tabulates.layout_eq _ p hread.known
  have hreaches : (o.asSession files).Reaches p rva 0 := by
    refine ⟨h.isAttached hread.known, ?_⟩
    exact (h.moduleBase?_eq hread.known rva).trans (if_pos hrva)
  have hpath : r.path = some first := by
    rw [hfirst] at hspelling
    rw [← hgrown.path_eq, (h.record p 0 later hlater).2.1, modulePath?_of_layout hlayout, hspelling]
  have hanswers := (o.asSession files).answersFrom_of_holds hheld m hr .symbol rva hreaches
  have hchain : (o.asSession files).symbolizer.live.chain = .standard none := h.chain_eq
  rw [hpath, hchain] at hanswers
  rw [OfflineImages.resolve, processFor_of_known hread.known]
  exact hanswers

section Ask

variable (hp : o.byPath.get? (Path.meaning path) = some p) (files : Files)

include hp

/-- Beyond the largest image there is nothing. -/
theorem ask_outside (hrva : imageSpan ≤ rva) :
    (o.symbolizer.resolve ⟨files, o.processes⟩ p rva).1 = .error (.noModule rva) := by
  have hbase := h.moduleBase?_eq hp rva
  rw [if_neg (UInt64.not_lt.mpr hrva)] at hbase
  exact congrArg Prod.fst
    (Question.symbol.ask_of_no_module ⟨files, o.processes⟩ p rva _ (h.isAttached hp) hbase)

/-- A question within an image file is answered from what was read of it before, or else from what
is in it now. -/
theorem ask_fst (hrva : rva < imageSpan)
    (hfirst : Path.spelling? paths (Path.meaning path) = some first) :
    (o.symbolizer.resolve ⟨files, o.processes⟩ p rva).1 =
      o.answerFrom p first (o.symbolizer.contentsAt ⟨files, o.processes⟩ p 0) rva := by
  let w : World := ⟨files, o.processes⟩
  have hbase : w.processes.moduleBase? p rva = some 0 :=
    (h.moduleBase?_eq hp rva).trans (if_pos hrva)
  obtain ⟨decoded, hask⟩ :=
    Question.symbol.ask_of_module w p rva 0 o.symbolizer (h.isAttached hp) hbase
  obtain ⟨spelling, hspelling, hlayout⟩ := h.tabulates.layout_eq _ p hp
  obtain rfl := Option.some.inj (hfirst.symm.trans hspelling)
  have hat := o.symbolizer.recordAt_base w p 0 h.accounts.keyed
  have hpath : (o.symbolizer.recordAt w p 0).path = some first :=
    (h.recordAt_path files p).trans (modulePath?_of_layout hlayout)
  have hfst := congrArg Prod.fst hask
  rw [hat, h.chain_eq] at hfst
  refine hfst.trans ?_
  exact o.symbolizer.outcome_congr hat hpath _

theorem hasRead_ask (hrva : rva < imageSpan) :
    ({ o with symbolizer := (o.symbolizer.resolve ⟨files, o.processes⟩ p rva).2 } :
      OfflineImages).HasRead (Path.meaning path) p
        (o.symbolizer.contentsAt ⟨files, o.processes⟩ p 0) := by
  have hreaches : (o.asSession files).Reaches p rva 0 := by
    refine ⟨h.isAttached hp, ?_⟩
    exact (h.moduleBase?_eq hp rva).trans (if_pos hrva)
  obtain ⟨r, hheld, -, hr⟩ :=
    (o.asSession files).holds_of_ask h.accounts.keyed .symbol rva hreaches
  exact ⟨hp, r, hheld, hr⟩

/-- An image file that no question reached yet is read now. -/
theorem contentsAt_of_unread (hfirst : Path.spelling? paths (Path.meaning path) = some first)
    (hunread : ∀ question ∈ questions, question.2 < imageSpan →
      Path.meaning question.1 ≠ Path.meaning path) :
    o.symbolizer.contentsAt ⟨files, o.processes⟩ p 0 = .ofFile files limit first := by
  obtain ⟨spelling, hspelling, hlayout⟩ := h.tabulates.layout_eq _ p hp
  obtain rfl := Option.some.inj (hfirst.symm.trans hspelling)
  have hnone : o.symbolizer.cache.record? p 0 = none := by
    by_contra hsome
    obtain ⟨r, hr⟩ := Option.ne_none_iff_exists'.mp hsome
    obtain ⟨-, -, question, hquestion, hspan, hknown⟩ := h.record p 0 r hr
    exact hunread question hquestion hspan (h.tabulates.injective _ _ p hknown hp)
  have hat : o.symbolizer.recordAt ⟨files, o.processes⟩ p 0 =
      { base := 0, path := some first } := by
    rw [LiveSymbolizer.recordAt, ModuleCache.loaded, hnone, Option.getD_none,
      modulePath?_of_layout hlayout]
  rw [LiveSymbolizer.contentsAt, hat, LiveSymbolizer.build, h.accounts.limit_eq]
  exact build_of_layout hlayout files limit

end Ask

end Keeps

end OfflineImages

end Postmortem
