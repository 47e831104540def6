import Postmortem.Proofs.Symbolizer.Separation
import Postmortem.Symbolizer.Call

/-!
# Processes are kept apart

The replies about a process depend on the calls about it and on those about what all processes
share, in their order, and on no other calls. What makes this so is that calls about the process
give the same in sessions that are the same for it, and leave them so, and that all other calls
leave a session as it is for the process. So the other calls may as well be left out of a run.
-/
namespace Postmortem

variable {p q : ProcessId}

namespace Scope

theorem concerns_process : (process q).concerns p = true ↔ q = p := by
  simp [concerns]

/-- What has nothing to do with a process is not about it. -/
theorem ne_of_not_concerns {scope : Scope} (h : ¬ scope.concerns p = true) (q : ProcessId)
    (hq : scope = .process q) : p ≠ q := by
  rintro rfl
  rw [hq] at h
  exact h (concerns_process.mpr rfl)

end Scope

namespace Symbolizer

variable {w v : World} {s t : Symbolizer}

/-- What an operation that has to do with a process gives, and what it leaves. -/
theorem perform_same (hw : w.SameFor p v) (h : s.live.SameFor p t.live) (operation : Operation)
    (hc : operation.scope.concerns p = true) :
    s.reply w operation = t.reply v operation ∧
      (s.perform w operation).live.SameFor p (t.perform v operation).live := by
  cases operation with
  | attach q =>
    obtain rfl := Scope.concerns_process.mp hc
    exact ⟨rfl, h.attach⟩
  | detach q =>
    obtain rfl := Scope.concerns_process.mp hc
    exact ⟨congrArg Reply.flag h.detach.fst_eq, h.detach.snd⟩
  | moduleLoaded q b =>
    obtain rfl := Scope.concerns_process.mp hc
    exact ⟨congrArg Reply.module (h.moduleLoaded hw b).fst_eq, (h.moduleLoaded hw b).snd⟩
  | moduleUnloaded q b =>
    obtain rfl := Scope.concerns_process.mp hc
    exact ⟨congrArg Reply.flag (h.moduleUnloaded b).fst_eq, (h.moduleUnloaded b).snd⟩
  | lookupModule q a =>
    obtain rfl := Scope.concerns_process.mp hc
    exact ⟨congrArg Reply.module (h.lookupModule hw a).fst_eq, (h.lookupModule hw a).snd⟩
  | ask k q a =>
    obtain rfl := Scope.concerns_process.mp hc
    exact ⟨congrArg Reply.symbol (h.question hw k a).fst_eq, (h.question hw k a).snd⟩
  | resolveInFile path rva => cases hc
  | setDemangle demangle => exact ⟨rfl, h.setDemangle demangle⟩
  | addSource source => exact ⟨rfl, h.addSource source⟩
  | report config request =>
    have hreport := Report.write_alike hw h config request (Scope.concerns_process.mp hc)
    exact ⟨congrArg Reply.text hreport.fst_eq, hreport.snd⟩

/-- What an operation leaves that has nothing to do with a process. -/
theorem perform_other (h : s.live.SameFor p t.live) (w : World) (operation : Operation)
    (hc : ¬ operation.scope.concerns p = true) : (s.perform w operation).live.SameFor p t.live := by
  have hpq := Scope.ne_of_not_concerns hc
  cases operation with
  | attach q => exact h.of_attach (hpq q rfl)
  | detach q => exact h.of_detach (hpq q rfl)
  | moduleLoaded q b => exact h.of_moduleLoadedFrom (hpq q rfl) b _
  | moduleUnloaded q b => exact h.of_moduleUnloaded (hpq q rfl) b
  | lookupModule q a => exact h.of_lookupModule (hpq q rfl) w a
  | ask k q a => exact h.of_question (hpq q rfl) k w a
  | resolveInFile path rva => exact h
  | setDemangle demangle => exact absurd rfl hc
  | addSource source => exact absurd rfl hc
  | report config request => exact Report.write_other h w config request (hpq _ rfl)

end Symbolizer

namespace Session

/-- Whether two sessions are the same for a process. -/
structure SameFor (p : ProcessId) (s t : Session) : Prop where
  world : s.world.SameFor p t.world
  live : s.symbolizer.live.SameFor p t.symbolizer.live

theorem SameFor.refl (p : ProcessId) (s : Session) : s.SameFor p s :=
  ⟨⟨rfl, rfl⟩, .refl p s.symbolizer.live⟩

variable {s t : Session}

/-- Sessions that are the same as a third one are the same. -/
theorem SameFor.common {u : Session} (hs : s.SameFor p u) (ht : t.SameFor p u) : s.SameFor p t where
  world := ⟨hs.world.files_eq.trans ht.world.files_eq.symm,
    hs.world.layout_eq.trans ht.world.layout_eq.symm⟩
  live := ⟨hs.live.config_eq.trans ht.live.config_eq.symm,
    hs.live.native_eq.trans ht.live.native_eq.symm, hs.live.chain_eq.trans ht.live.chain_eq.symm,
    Eq.trans hs.live.cache (Eq.symm ht.live.cache)⟩

namespace SameFor

variable (h : s.SameFor p t)

include h

/-- What a call that has to do with a process gives, and what it leaves. -/
theorem after (call : Call) (hc : call.concerns p = true) :
    s.reply call = t.reply call ∧ (s.after call).SameFor p (t.after call) := by
  have hlayout := h.world.layout_eq
  cases call with
  | operation operation =>
    have hsame := Symbolizer.perform_same h.world h.live operation hc
    exact ⟨hsame.1, h.world, hsame.2⟩
  | loadedFrom q b path =>
    obtain rfl := Scope.concerns_process.mp hc
    have hload := h.live.moduleLoadedFrom b path
    exact ⟨congrArg Reply.module hload.fst_eq, h.world, hload.snd⟩
  | isAttached q =>
    obtain rfl := Scope.concerns_process.mp hc
    exact ⟨congrArg Reply.flag h.live.cache.isAttached_eq, h⟩
  | moduleCount q =>
    obtain rfl := Scope.concerns_process.mp hc
    exact ⟨congrArg Reply.count h.live.cache.moduleCount?_eq, h⟩
  | record q b =>
    obtain rfl := Scope.concerns_process.mp hc
    exact ⟨congrArg Reply.kept (h.live.cache.record?_eq b), h⟩
  | counters => cases hc
  | offlineCounters => cases hc
  | addModule q b size path =>
    obtain rfl := Scope.concerns_process.mp hc
    exact ⟨rfl, ⟨h.world.files_eq, ProcessMap.layout_update_congr hlayout _⟩, h.live⟩
  | removeModule q b =>
    obtain rfl := Scope.concerns_process.mp hc
    have hremove := ProcessMap.removeModule_congr hlayout b
    exact ⟨congrArg Reply.flag hremove.1, ⟨h.world.files_eq, hremove.2⟩, h.live⟩
  | addMemory q a bytes =>
    obtain rfl := Scope.concerns_process.mp hc
    exact ⟨rfl, ⟨h.world.files_eq, ProcessMap.layout_update_congr hlayout _⟩, h.live⟩
  | moduleBase q a =>
    obtain rfl := Scope.concerns_process.mp hc
    exact ⟨congrArg Reply.base (ProcessMap.moduleBase?_congr hlayout a), h⟩
  | modulePath q b =>
    obtain rfl := Scope.concerns_process.mp hc
    exact ⟨congrArg Reply.path (ProcessMap.modulePath?_congr hlayout b), h⟩
  | readMemory q a count =>
    obtain rfl := Scope.concerns_process.mp hc
    exact ⟨congrArg Reply.memory (ProcessMap.readMemory?_congr hlayout a count), h⟩
  | changeFiles change => exact ⟨rfl, ⟨congrArg change h.world.files_eq, hlayout⟩, h.live⟩

/-- What a call leaves that has nothing to do with a process. -/
theorem after_other (call : Call) (hc : ¬ call.concerns p = true) :
    (s.after call).SameFor p t := by
  have hpq := Scope.ne_of_not_concerns hc
  cases call with
  | operation operation => exact ⟨h.world, Symbolizer.perform_other h.live s.world operation hc⟩
  | loadedFrom q b path => exact ⟨h.world, h.live.of_moduleLoadedFrom (hpq q rfl) b path⟩
  | addModule q b size path =>
    have hother := s.world.processes.layout_update_other (hpq q rfl)
    exact ⟨⟨h.world.files_eq, (hother _).trans h.world.layout_eq⟩, h.live⟩
  | removeModule q b =>
    have hother := s.world.processes.layout_removeModule_other (hpq q rfl) b
    exact ⟨⟨h.world.files_eq, hother.trans h.world.layout_eq⟩, h.live⟩
  | addMemory q a bytes =>
    have hother := s.world.processes.layout_update_other (hpq q rfl)
    exact ⟨⟨h.world.files_eq, (hother _).trans h.world.layout_eq⟩, h.live⟩
  | changeFiles change => exact absurd rfl hc
  | isAttached | moduleCount | record | counters | offlineCounters | moduleBase | modulePath
  | readMemory => exact h

/-- The calls that have nothing to do with a process may be left out. -/
theorem replies_filter (calls : List Call) :
    (s.replies calls).filter (·.1.concerns p) =
        t.replies (calls.filter (·.concerns p)) ∧
      (s.afterAll calls).SameFor p (t.afterAll (calls.filter (·.concerns p))) := by
  induction calls generalizing s t with
  | nil => exact ⟨rfl, h⟩
  | cons call rest ih =>
    by_cases hc : call.concerns p = true
    · obtain ⟨hreply, hafter⟩ := h.after call hc
      obtain ⟨hreplies, hleft⟩ := ih hafter
      rw [List.filter_cons_of_pos hc, replies, replies, List.filter_cons_of_pos (by exact hc),
        hreply, hreplies]
      exact ⟨rfl, hleft⟩
    · obtain ⟨hreplies, hleft⟩ := ih (h.after_other call hc)
      rw [List.filter_cons_of_neg hc, replies, List.filter_cons_of_neg (by exact hc), hreplies]
      exact ⟨rfl, hleft⟩

end SameFor

/-- Two runs from the same start in which the same calls are made about a process and about what all
processes share: those calls get the same replies, whatever else is called in between. -/
theorem replies_isolated (world : World) (config : Config) (native : Option NativeSymbolizer)
    (chain : Option SourceChain) (p : ProcessId) (calls₁ calls₂ : List Call)
    (hcalls : calls₁.filter (·.concerns p) = calls₂.filter (·.concerns p)) :
    let s := start world config native chain
    (s.replies calls₁).filter (·.1.concerns p) = (s.replies calls₂).filter (·.1.concerns p) ∧
      (s.afterAll calls₁).SameFor p (s.afterAll calls₂) := by
  intro s
  obtain ⟨hreplies₁, hleft₁⟩ := (SameFor.refl p s).replies_filter calls₁
  obtain ⟨hreplies₂, hleft₂⟩ := (SameFor.refl p s).replies_filter calls₂
  rw [← hcalls] at hreplies₂ hleft₂
  exact ⟨hreplies₁.trans hreplies₂.symm, hleft₁.common hleft₂⟩

/-- Some calls about one process. -/
def callsOfOne : List Call :=
  [.operation (.attach ⟨1⟩), .addModule ⟨1⟩ 0x1000 0x1000 none,
    .operation (.ask .symbol ⟨1⟩ 0x1010), .moduleCount ⟨1⟩]

/-- The same calls among those about another process, which has a module at the same base. -/
def callsOfTwo : List Call :=
  [.operation (.attach ⟨2⟩), .operation (.attach ⟨1⟩), .addModule ⟨2⟩ 0x1000 0x2000 (some "a.dll"),
    .operation (.resolveInFile "a.dll" 0x10), .addModule ⟨1⟩ 0x1000 0x1000 none,
    .operation (.ask .symbol ⟨2⟩ 0x1010), .operation (.ask .symbol ⟨1⟩ 0x1010),
    .operation (.detach ⟨2⟩), .moduleCount ⟨1⟩, .counters]

theorem callsOfOne_isolated :
    callsOfOne.filter (·.concerns ⟨1⟩) = callsOfTwo.filter (·.concerns ⟨1⟩) ∧
      let s := start {} {} none none
      (s.replies callsOfOne).filter (·.1.concerns ⟨1⟩) =
          (s.replies callsOfTwo).filter (·.1.concerns ⟨1⟩) ∧
        (s.afterAll callsOfOne).SameFor ⟨1⟩ (s.afterAll callsOfTwo) :=
  ⟨rfl, replies_isolated {} {} none none ⟨1⟩ callsOfOne callsOfTwo rfl⟩

end Session

end Postmortem
