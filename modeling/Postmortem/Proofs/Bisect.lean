import Mathlib.Data.Nat.Find
import Mathlib.Tactic.Common
import Postmortem.Bisect

/-!
# What a search by halving finds

In a table in order the search ends at the one entry that the target is at, and the partition point
separates the entries before it from the others. Whatever the order, an entry that is found compares
equal to the target.
-/
namespace Postmortem

variable {size : Nat}

/-! ## The probe -/

/-- The search ends at the entry that those after the target come behind. -/
theorem bisectProbe_eq {after : Nat → Bool} {base i : Nat} (hbase : base ≤ i)
    (hsize : i < base + size) (hafter : ∀ j < base + size, after j = true ↔ i < j) :
    bisectProbe after base size = i := by
  induction size using Nat.strongRecOn generalizing base with
  | _ size ih =>
    by_cases hmany : 1 < size
    · have hprobe := hafter (base + size / 2) (by omega)
      rw [bisectProbe, if_pos hmany]
      dsimp only
      by_cases hi : i < base + size / 2
      · rw [if_pos (hprobe.mpr hi)]
        exact ih _ (by omega) hbase (by omega) fun j hj => hafter j (by omega)
      · rw [if_neg (mt hprobe.mp hi)]
        exact ih _ (by omega) (by omega) (by omega) fun j hj => hafter j (by omega)
    · rw [bisectProbe, if_neg hmany]
      omega

/-- The search moves only to entries that are not behind the target. -/
theorem bisectProbe_eq_or (after : Nat → Bool) (base size : Nat) :
    bisectProbe after base size = base ∨ after (bisectProbe after base size) = false := by
  induction size using Nat.strongRecOn generalizing base with
  | _ size ih =>
    rw [bisectProbe]
    by_cases hmany : 1 < size
    · rw [if_pos hmany]
      dsimp only
      cases hafter : after (base + size / 2) with
      | true => exact ih _ (by omega) base
      | false =>
        obtain hsame | hnot := ih (size - size / 2) (by omega) (base + size / 2)
        · right
          simp only [Bool.false_eq_true, if_false, hsame, hafter]
        · exact .inr hnot
    · rw [if_neg hmany]
      exact .inl rfl

/-! ## Entries that compare equal -/

section Find

variable {compare : Nat → Ordering} {i : Nat}

theorem eq_of_bisectFind? (h : bisectFind? size compare = some i) : compare i = .eq := by
  unfold bisectFind? at h
  by_cases hsize : size = 0
  · rw [if_pos hsize] at h
    cases h
  · rw [if_neg hsize] at h
    dsimp only at h
    split at h
    · next heq =>
      obtain rfl := Option.some.inj h
      exact beq_iff_eq.mp heq
    · cases h

theorem bisectFind?_eq_some (hi : i < size) (heq : compare i = .eq)
    (hlt : ∀ j < i, compare j = .lt) (hgt : ∀ j < size, i < j → compare j = .gt) :
    bisectFind? size compare = some i := by
  have hprobe : bisectProbe (fun j => compare j == .gt) 0 size = i := by
    apply bisectProbe_eq (Nat.zero_le i) (by omega)
    intro j hj
    rw [beq_iff_eq]
    constructor
    · intro hafter
      by_contra hle
      obtain hlower | rfl := Nat.lt_or_eq_of_le (Nat.le_of_not_lt hle)
      · rw [hlt j hlower] at hafter
        cases hafter
      · rw [heq] at hafter
        cases hafter
    · exact hgt j (by omega)
  unfold bisectFind?
  rw [if_neg (by omega)]
  simp only [hprobe, heq, beq_self_eq_true, if_true]

end Find

/-! ## The partition point -/

/-- In a table where the entries with `holds` come first, those before the partition point are
exactly these. -/
theorem lt_partitionPoint_iff {holds : Nat → Bool}
    (hdown : ∀ i j, i ≤ j → holds j = true → holds i = true) (i : Nat) :
    i < partitionPoint size holds ↔ i < size ∧ holds i = true := by
  unfold partitionPoint
  by_cases hsize : size = 0
  · rw [if_pos hsize]
    omega
  rw [if_neg hsize]
  dsimp only
  cases hfirst : holds 0 with
  | false =>
    have hnone (j : Nat) : holds j = false := by
      by_contra hj
      have hzero := hdown 0 j (Nat.zero_le j) (by simpa using hj)
      rw [hfirst] at hzero
      cases hzero
    obtain hprobe | hprobe := bisectProbe_eq_or (fun j => !holds j) 0 size
    · rw [hprobe, hnone, hnone]
      simp
    · rw [hnone] at hprobe
      cases hprobe
  | true =>
    -- The last entry with the property is the one that the search ends at.
    obtain ⟨last, hlast, hholds, hmax⟩ : ∃ last < size, holds last = true ∧
        ∀ j, j < size → holds j = true → j ≤ last := by
      refine ⟨Nat.findGreatest (holds · = true) (size - 1), ?_, ?_, ?_⟩
      · have hle := Nat.findGreatest_le (P := (holds · = true)) (size - 1)
        omega
      · exact Nat.findGreatest_spec (P := (holds · = true)) (Nat.zero_le _) hfirst
      · intro j hj hholds
        exact Nat.le_findGreatest (by omega) hholds
    have hiff (j : Nat) (hj : j < size) : holds j = true ↔ j ≤ last :=
      ⟨hmax j hj, fun hle => hdown j last hle hholds⟩
    have hprobe : bisectProbe (fun j => !holds j) 0 size = last := by
      apply bisectProbe_eq (Nat.zero_le _) (by omega)
      intro j hj
      have hj' := hiff j (by omega)
      rw [Bool.not_eq_true', ← Bool.not_eq_true, hj', Nat.not_le]
    rw [hprobe, hholds, if_pos rfl, Nat.lt_succ_iff]
    constructor
    · intro hle
      exact ⟨by omega, hdown i last hle hholds⟩
    · rintro ⟨hi, hholdsi⟩
      exact hmax i hi hholdsi

end Postmortem
