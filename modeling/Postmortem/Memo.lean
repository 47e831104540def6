import Postmortem.Table

/-!
# What was worked out before

A memo keeps what a function gave, so that nothing is worked out twice; its failures are not kept.
Whatever a memo holds is what the function would give again, so a memo never shows in an answer. A
recollection is a way to an answer that may use what is kept, together with this fact.
-/
namespace Postmortem

/-- Results of `f` that were found before. -/
structure Memo {κ ε α : Type} [DecidableEq κ] (f : κ → Except ε α) where
  known : Table κ α := ∅
  known_eq : ∀ key a, known.get? key = some a → f key = .ok a := by simp

/-- A way to `a` that may use what is kept, and leaves what is kept afterwards. -/
structure Recall (σ : Type) {α : Type} (a : α) where
  run : σ → α × σ
  run_fst : ∀ kept, (run kept).1 = a

namespace Recall

attribute [simp] run_fst

variable {σ τ κ α β : Type} {a : α}

/-- The way to an answer that is known. -/
def pure (a : α) : Recall σ a := ⟨fun kept => (a, kept), fun _ => rfl⟩

/-- The way that works `f` out without a look at what is kept. -/
def work (f : κ → α) (key : κ) : Recall σ (f key) := ⟨fun kept => (f key, kept), fun _ => rfl⟩

/-- The same way to an answer that is written otherwise. -/
def cast {b : α} (x : Recall σ a) (h : a = b) : Recall σ b := ⟨x.run, fun kept => by simp [h]⟩

/-- One way after the other, when the second answer depends on the first. -/
def bind {f : α → β} (x : Recall σ a) (g : (a : α) → Recall σ (f a)) : Recall σ (f a) where
  run kept :=
    let (a, kept) := x.run kept
    (g a).run kept
  run_fst kept := by simp

def map (f : α → β) (x : Recall σ a) : Recall σ (f a) := x.bind fun a => pure (f a)

/-- The first answer that there is for the keys of a list. -/
def findSome? {answer : κ → Option β} (x : (key : κ) → Recall σ (answer key)) :
    (keys : List κ) → Recall σ (keys.findSome? answer)
  | [] => pure none
  | key :: keys =>
    ((x key).bind (f := fun b => b.or (keys.findSome? answer)) fun
      | some b => pure (some b)
      | none => (findSome? x keys).cast (by simp)).cast (by cases h : answer key <;> simp [h])

/-- A way that uses a part of what is kept. -/
def within (get : τ → σ) (set : τ → σ → τ) (x : Recall σ a) : Recall τ a where
  run kept :=
    let (a, part) := x.run (get kept)
    (a, set kept part)
  run_fst kept := by simp

end Recall

namespace Memo

variable {σ κ ε α : Type} [DecidableEq κ] {f : κ → Except ε α}

/-- The memo with one more result. -/
def add (m : Memo f) (key : κ) (a : α) (h : f key = .ok a) : Memo f where
  known := m.known.set key a
  known_eq other b hb := by
    rw [Table.get?_set] at hb
    split at hb
    · next same => rw [same, h, Option.some.inj hb]
    · exact m.known_eq other b hb

/-- The result of `f` for a key: the one that the memo has, or else the one that `way` leads to,
which is then kept. -/
def recallValue (get : σ → Memo f) (set : σ → Memo f → σ) (key : κ) (way : Recall σ (f key)) :
    Recall σ (f key) where
  run kept :=
    match (get kept).known.get? key with
    | some a => (.ok a, kept)
    | none =>
      match h : way.run kept with
      | (.ok a, kept') => (.ok a, set kept' ((get kept').add key a (by rw [← way.run_fst kept, h])))
      | (.error e, kept') => (.error e, kept')
  run_fst kept := by
    split
    · next a found => exact ((get kept).known_eq key a found).symm
    · split
      · next h => exact (congrArg Prod.fst h).symm.trans (way.run_fst kept)
      · next h => exact (congrArg Prod.fst h).symm.trans (way.run_fst kept)

end Memo

end Postmortem
