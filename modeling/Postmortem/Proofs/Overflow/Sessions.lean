import Postmortem.Checked.Session
import Postmortem.Proofs.Session.Replies

/-!
# Sessions in checked arithmetic

Checked arithmetic makes no difference to a session but one: a call may stop, and with it the
session. As long as no call does, the replies are those of arithmetic that wraps around.
-/
namespace Postmortem

namespace Checked

/-- Whether a computation stops or gives a value. -/
def StopsOr {α : Type} (x : Option α) (a : α) : Prop := x = none ∨ x = some a

namespace StopsOr

variable {α β : Type} {x : Option α} {a : α}

theorem some (a : α) : StopsOr (some a) a := .inr rfl

/-- One computation after the other. -/
theorem bind {f : α → Option β} {b : β} (hx : StopsOr x a) (hf : StopsOr (f a) b) :
    StopsOr (x.bind f) b := by
  obtain rfl | rfl := hx
  · exact .inl rfl
  · exact hf

/-- A check before a value that is known. -/
theorem check {f : α → Option β} {b : β} (hf : ∀ a, StopsOr (f a) b) : StopsOr (x.bind f) b := by
  cases x with
  | none => exact .inl rfl
  | some a => exact hf a

end StopsOr

variable (w : World) (config : RenderConfig) (process : ProcessId) (arch : Architecture)

theorem ask_stopsOr (k : Question) (address : UInt64) (s : LiveSymbolizer) :
    StopsOr (ask k w process address s) (k.ask w process address s) := by
  unfold ask
  split
  · exact .check fun _ => .check fun _ => .some _
  · exact .some _

theorem resolveInFile_stopsOr (files : Files) (path : String) (rva : UInt64) (s : Symbolizer) :
    StopsOr (resolveInFile files path rva s) (s.resolveInFile files path rva) :=
  .check fun _ => .some _

theorem frame_stopsOr (isCaller : Bool) (f : Report.StackFrame) (s : LiveSymbolizer) :
    StopsOr (frame w config process arch isCaller f s)
      (Report.frame w config process arch isCaller f s) := by
  unfold frame
  dsimp only
  split
  · refine .check fun found => ?_
    split
    · exact .check fun _ => .some _
    · exact .some _
  · exact .some _

theorem frames_stopsOr (isCaller : Bool) (fs : List Report.StackFrame) (s : LiveSymbolizer) :
    StopsOr (frames w config process arch isCaller fs s)
      (Report.frames w config process arch isCaller fs s) := by
  induction fs generalizing isCaller s with
  | nil => exact .some _
  | cons f rest ih =>
    rw [frames, Report.frames]
    exact (frame_stopsOr w config process arch isCaller f s).bind ((ih true _).bind (.some _))

theorem write_stopsOr (s : LiveSymbolizer) (request : Report.Request) :
    StopsOr (write w config s request) (request.write w config s) := by
  cases request with
  | frame process arch isCaller f => exact frame_stopsOr w config process arch isCaller f s
  | stack process arch fs =>
    exact (frames_stopsOr w config process arch false fs s).bind (.some _)
  | crash process context fs =>
    exact (frames_stopsOr w config process context.architecture false fs s).bind (.some _)
  | exception => exact .some _

theorem call_stopsOr (s : Session) (c : Call) : StopsOr (call s c) (s.reply c, s.after c) := by
  unfold call
  split
  · next k process address =>
    exact (ask_stopsOr s.world process k address s.symbolizer.live).bind (.some _)
  · next path rva =>
    exact (resolveInFile_stopsOr s.world.files path rva s.symbolizer).bind (.some _)
  · next config request =>
    exact (write_stopsOr s.world config s.symbolizer.live request).bind (.some _)
  · exact .some _

section Run

variable {s : Session} {c : Call} (rest : List Call)

theorem replies_cons_of_stops (h : call s c = none) : replies s (c :: rest) = none := by
  rw [replies, h]
  rfl

theorem replies_cons (h : call s c ≠ none) :
    replies s (c :: rest) = (replies (s.after c) rest).map ((c, s.reply c) :: ·) := by
  obtain hstops | hcall := call_stopsOr s c
  · exact absurd hstops h
  · rw [replies, hcall, Option.map_eq_bind]
    rfl

end Run

/-- A session is answered as in arithmetic that wraps around, unless one of its calls stops. -/
theorem replies_eq_some_iff (s : Session) (calls : List Call) (answered : List (Call × Reply)) :
    replies s calls = some answered ↔
      answered = s.replies calls ∧
        ∀ before c later, calls = before ++ c :: later → call (s.afterAll before) c ≠ none := by
  induction calls generalizing s answered with
  | nil =>
    have hnone : ∀ before c later, ([] : List Call) = before ++ c :: later →
        call (s.afterAll before) c ≠ none :=
      fun before c later h => absurd h.symm (List.append_ne_nil_of_right_ne_nil before (by simp))
    exact ⟨fun h => ⟨(Option.some.inj h).symm, hnone⟩, fun h => congrArg some h.1.symm⟩
  | cons c rest ih =>
    by_cases hcall : call s c = none
    · rw [replies_cons_of_stops rest hcall]
      constructor
      · intro h
        cases h
      · rintro ⟨-, hall⟩
        exact absurd hcall (hall [] c rest rfl)
    · rw [replies_cons rest hcall, Option.map_eq_some_iff]
      simp only [ih]
      constructor
      · rintro ⟨_, ⟨rfl, hrest⟩, rfl⟩
        refine ⟨rfl, ?_⟩
        rintro before c' later h
        cases before with
        | nil =>
          obtain ⟨rfl, -⟩ := List.cons.inj h
          exact hcall
        | cons first before =>
          obtain ⟨rfl, htail⟩ := List.cons.inj h
          exact hrest before c' later htail
      · rintro ⟨rfl, hall⟩
        refine ⟨_, ⟨rfl, fun before c' later h => ?_⟩, rfl⟩
        exact hall (c :: before) c' later (congrArg (c :: ·) h)

end Checked

end Postmortem
