import Mathlib
import Postmortem.Checked.Arithmetic

/-!
# Computations that do not overflow

A computation within its width goes on with its result. A checked reader agrees with the one whose
numbers wrap around when it never stops and gives the same value or refuses the image for the same
reason.
-/
namespace Postmortem

namespace Checked

theorem offset_of_lt {n : Nat} (h : n < 2 ^ 40) : offset n = some n :=
  if_pos (Nat.le_trans (Nat.le_of_lt h) (by decide))

theorem sub64_of_le {a b : UInt64} (h : b ≤ a) : sub64 a b = some (a - b) := if_pos h

theorem sub32_of_le {a b : UInt32} (h : b ≤ a) : sub32 a b = some (a - b) := if_pos h

theorem pred16_of_pos {a : Int16} (h : 0 < a) : pred16 a = some (a - 1) := by
  refine if_pos ?_
  rw [Int16.lt_iff_toInt_lt] at h ⊢
  exact Int.lt_trans (by decide) h

/-- Whether a checked reader gives what the other one gives. -/
def Agrees {α : Type} (x : Reader α) (y : Except ImageError α) : Prop := x.run = some y

namespace Agrees

variable {α β : Type} {x : Reader α} {y : Except ImageError α}

theorem pure (a : α) : Agrees (Pure.pure a) (Pure.pure a) := rfl

theorem throw (e : ImageError) : Agrees (MonadExcept.throw e : Reader α) (.error e) := rfl

/-- A step without arithmetic is the same for both. -/
theorem lift (y : Except ImageError α) : Agrees (liftM y) y := rfl

theorem bind {f : α → Reader β} {g : α → Except ImageError β} (hx : Agrees x y)
    (hf : ∀ a, y = .ok a → Agrees (f a) (g a)) : Agrees (x >>= f) (y >>= g) := by
  have hrun : (x >>= f).run = x.run >>= ExceptT.bindCont f := rfl
  rw [Agrees, hrun, hx]
  cases y with
  | error e => rfl
  | ok a => exact hf a rfl

theorem ite {p : Prop} [Decidable p] {x' : Reader α} {y' : Except ImageError α}
    (hx : p → Agrees x y) (hx' : ¬ p → Agrees x' y') :
    Agrees (if p then x else x') (if p then y else y') := by
  by_cases h : p
  · rw [if_pos h, if_pos h]
    exact hx h
  · rw [if_neg h, if_neg h]
    exact hx' h

/-- A check that refuses an image before the rest is read. -/
theorem guard {p : Prop} [Decidable p] {e : ImageError} {f : PUnit → Reader α}
    {g : PUnit → Except ImageError α} (h : ¬ p → Agrees x y) :
    Agrees (if p then MonadExcept.throw e >>= f else x)
      (if p then MonadExcept.throw e >>= g else y) :=
  ite (fun _ => rfl) h

/-- A step that is left out for some images, with a value in its place. -/
theorem optional {γ : Type} {p : Prop} [Decidable p] {a : α} {k : γ → α} {x : Reader γ}
    {y : Except ImageError γ} {f : α → Reader β} {g : α → Except ImageError β}
    (hx : ¬ p → Agrees x y) (hf : ∀ a, Agrees (f a) (g a)) :
    Agrees (if p then do f (← Pure.pure a) else do let c ← x; f (← Pure.pure (k c)))
      (if p then do g (← Pure.pure a) else do let c ← y; g (← Pure.pure (k c))) :=
  ite (fun _ => bind (pure a) fun a _ => hf a) fun h =>
    bind (hx h) fun c _ => bind (pure (k c)) fun a _ => hf a

/-- A computation that stays within its width goes on with its result. -/
theorem step {o : Option β} {b : β} (ho : o = some b) {f : β → Reader α} (hf : Agrees (f b) y) :
    Agrees (liftM o >>= f) y := by
  rw [ho]
  exact hf

/-- A field is read at a small offset. -/
theorem field {n : Nat} (h : n < 2 ^ 40) {r : Nat → Except ImageError α} {f : α → Reader β}
    {g : α → Except ImageError β} (hf : ∀ a, r n = .ok a → Agrees (f a) (g a)) :
    Agrees (do let a ← r (← offset n); f a) (r n >>= g) :=
  step (offset_of_lt h) (bind (lift _) hf)

end Agrees

/-- A checked function that never stops, over a list. -/
theorem mapM_eq_some {α β : Type} {f : α → Option β} {g : α → β} {l : List α}
    (h : ∀ a ∈ l, f a = some (g a)) : l.mapM f = some (l.map g) := by
  induction l with
  | nil => rfl
  | cons a rest ih =>
    rw [List.mapM_cons, h a List.mem_cons_self, ih fun b hb => h b (List.mem_cons_of_mem _ hb)]
    rfl

end Checked

end Postmortem
