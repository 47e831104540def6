import Mathlib.Data.List.Forall2
import Postmortem.Symbolizer.Call

/-!
# Replies in two runs

Two runs are compared in which the same calls of some kind are made, in the same order, while the
other calls differ. If some relation between the sessions is kept by the calls of that kind, made in
both, and by every other call, made in either, then the replies to the calls of that kind
correspond.
-/
namespace Postmortem.Session

/-- A relation between sessions that stays when the same call of some kind is made in both, or any
other call in one of them. Replies to the calls of that kind are related as well. -/
structure Corresponds (relevant : Call → Bool) (related : Session → Session → Prop)
    (alike : Reply → Reply → Prop) : Prop where
  both : ∀ s t call, relevant call = true → related s t →
    alike (s.reply call) (t.reply call) ∧ related (s.after call) (t.after call)
  left : ∀ s t call, ¬ relevant call = true → related s t → related (s.after call) t
  right : ∀ s t call, ¬ relevant call = true → related s t → related s (t.after call)

theorem replies_append (s : Session) (first second : List Call) :
    s.replies (first ++ second) = s.replies first ++ (s.afterAll first).replies second := by
  induction first generalizing s with
  | nil => rfl
  | cons call rest ih =>
    have hrest := ih (s.after call)
    rw [List.cons_append, replies, replies, List.cons_append, hrest]
    rfl

theorem afterAll_append (s : Session) (first second : List Call) :
    s.afterAll (first ++ second) = (s.afterAll first).afterAll second :=
  List.foldl_append ..

/-- Each reply stands with the call it is for. -/
theorem map_fst_replies (s : Session) (calls : List Call) :
    (s.replies calls).map Prod.fst = calls := by
  induction calls generalizing s with
  | nil => rfl
  | cons call rest ih => rw [replies, List.map_cons, ih]

theorem filter_replies_of_irrelevant {relevant : Call → Bool} (s : Session) (calls : List Call)
    (h : ∀ call ∈ calls, ¬ relevant call = true) :
    (s.replies calls).filter (fun answered => relevant answered.1) = [] := by
  rw [List.filter_eq_nil_iff]
  intro answered hanswered
  refine h answered.1 ?_
  rw [← s.map_fst_replies calls]
  exact List.mem_map_of_mem hanswered

/-- Sessions of which one part is the same, when only the calls of the kind change it. -/
theorem Corresponds.of_part {α : Type} {relevant : Call → Bool} {alike : Reply → Reply → Prop}
    (part : Session → α)
    (both : ∀ s t call, relevant call = true → part s = part t →
      alike (s.reply call) (t.reply call) ∧ part (s.after call) = part (t.after call))
    (other : ∀ s call, ¬ relevant call = true → part (s.after call) = part s) :
    Corresponds relevant (fun s t => part s = part t) alike where
  both := both
  left s _ call hcall h := (other s call hcall).trans h
  right _ t call hcall h := h.trans (other t call hcall).symm

namespace Corresponds

variable {relevant : Call → Bool} {related : Session → Session → Prop}
  {alike : Reply → Reply → Prop} (h : Corresponds relevant related alike) {s t : Session}

include h

theorem afterAll_right (hst : related s t) (calls : List Call)
    (hcalls : ∀ call ∈ calls, ¬ relevant call = true) : related s (t.afterAll calls) := by
  induction calls generalizing t with
  | nil => exact hst
  | cons call rest ih =>
    have hfirst := h.right s t call (hcalls call List.mem_cons_self) hst
    exact ih hfirst fun other hother => hcalls other (List.mem_cons_of_mem _ hother)

/-- The replies to the calls of the kind correspond, whatever else is called in either run. -/
theorem replies (hst : related s t) (calls₁ calls₂ : List Call)
    (hcalls : calls₁.filter relevant = calls₂.filter relevant) :
    List.Forall₂ (fun x y => x.1 = y.1 ∧ alike x.2 y.2)
        ((s.replies calls₁).filter fun answered => relevant answered.1)
        ((t.replies calls₂).filter fun answered => relevant answered.1) ∧
      related (s.afterAll calls₁) (t.afterAll calls₂) := by
  induction calls₁ generalizing s t calls₂ with
  | nil =>
    have hnone : ∀ call ∈ calls₂, ¬ relevant call = true :=
      List.filter_eq_nil_iff.mp hcalls.symm
    rw [t.filter_replies_of_irrelevant calls₂ hnone]
    exact ⟨.nil, h.afterAll_right hst calls₂ hnone⟩
  | cons call rest ih =>
    by_cases hcall : relevant call = true
    · -- The second run comes to the same call after some that are left out.
      rw [List.filter_cons_of_pos hcall] at hcalls
      obtain ⟨before, later, rfl, hbefore, -, hlater⟩ := List.filter_eq_cons_iff.mp hcalls.symm
      have hreached := h.afterAll_right hst before hbefore
      obtain ⟨hreply, hafter⟩ := h.both s _ call hcall hreached
      obtain ⟨hreplies, hend⟩ := ih hafter later hlater.symm
      rw [replies_append, List.filter_append, t.filter_replies_of_irrelevant before hbefore,
        List.nil_append, Session.replies, Session.replies, List.filter_cons_of_pos (by exact hcall),
        List.filter_cons_of_pos (by exact hcall), afterAll_append]
      exact ⟨.cons ⟨rfl, hreply⟩ hreplies, hend⟩
    · rw [List.filter_cons_of_neg hcall] at hcalls
      rw [Session.replies, List.filter_cons_of_neg (by exact hcall)]
      exact ih (h.left s t call hcall hst) calls₂ hcalls

end Corresponds

/-- When replies only correspond if they are equal, the two runs give the same replies. -/
theorem Corresponds.replies_eq {relevant : Call → Bool} {related : Session → Session → Prop}
    (h : Corresponds relevant related Eq) {s t : Session} (hst : related s t)
    (calls₁ calls₂ : List Call) (hcalls : calls₁.filter relevant = calls₂.filter relevant) :
    (s.replies calls₁).filter (fun answered => relevant answered.1) =
      (t.replies calls₂).filter (fun answered => relevant answered.1) := by
  have hreplies := (h.replies hst calls₁ calls₂ hcalls).1
  have heq : List.Forall₂ Eq
      ((s.replies calls₁).filter fun answered => relevant answered.1)
      ((t.replies calls₂).filter fun answered => relevant answered.1) :=
    hreplies.imp fun x y hxy => Prod.ext hxy.1 hxy.2
  rwa [List.forall₂_eq_eq_eq] at heq

end Postmortem.Session
