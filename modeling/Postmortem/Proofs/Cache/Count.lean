import Mathlib.Algebra.GroupWithZero.Nat
import Postmortem.Proofs.Cache.Records

/-!
# Sums over the records of a cache

A weight of records is summed up over all processes. Each operation changes such a sum by the
weights of the records it adds and drops.
-/
namespace Postmortem

namespace Table

variable {κ α : Type}

/-- The sum of a weight over the values of a table. -/
def total (t : Table κ α) (weight : α → Nat) : Nat := (t.entries.map fun e => weight e.2).sum

theorem total_one (t : Table κ α) : t.total (fun _ => 1) = t.size := by
  rw [total, size, List.map_const', List.sum_replicate_nat, Nat.mul_one]

variable [DecidableEq κ]

theorem sum_filter_ne_add (entries : List (κ × α)) (h : (entries.map Prod.fst).Nodup) (key : κ)
    (weight : α → Nat) :
    ((entries.filter fun e => e.1 ≠ key).map fun e => weight e.2).sum +
      (entries.lookup key).elim 0 weight = (entries.map fun e => weight e.2).sum := by
  induction entries with
  | nil => rfl
  | cons e rest ih =>
    obtain ⟨k, a⟩ := e
    rw [List.map_cons, List.nodup_cons] at h
    have hrest := ih h.2
    by_cases hk : k = key
    · subst hk
      -- The key is not in the rest, so nothing else is left out.
      have hnone : rest.lookup k = none := by
        rw [List.lookup_eq_none_iff]
        intro e he
        rw [bne_iff_ne]
        rintro rfl
        exact h.1 (List.mem_map.mpr ⟨e, he, rfl⟩)
      rw [hnone] at hrest
      simp only [List.lookup_cons_self, Option.elim, List.map_cons, List.sum_cons, ne_eq,
        not_true_eq_false, decide_false, Bool.false_eq_true, not_false_eq_true,
        List.filter_cons_of_neg] at hrest ⊢
      omega
    · have hlookup : ((k, a) :: rest).lookup key = rest.lookup key := by
        rw [List.lookup_cons, beq_eq_false_iff_ne.mpr (Ne.symm hk)]
      rw [hlookup, List.filter_cons_of_pos (by simpa using hk), List.map_cons, List.map_cons,
        List.sum_cons, List.sum_cons]
      omega

theorem total_erase (t : Table κ α) (key : κ) (weight : α → Nat) :
    (t.erase key).total weight + (t.get? key).elim 0 weight = t.total weight :=
  sum_filter_ne_add t.entries t.nodup key weight

theorem total_set (t : Table κ α) (key : κ) (a : α) (weight : α → Nat) :
    (t.set key a).total weight + (t.get? key).elim 0 weight = t.total weight + weight a := by
  have h := t.total_erase key weight
  have hs : (t.set key a).total weight = weight a + (t.erase key).total weight := by
    rw [total, total, set, List.map_cons, List.sum_cons]
  omega

end Table

namespace ModuleCache

variable (c : ModuleCache) (p : ProcessId) (b : UInt64) (weight : ModuleRecord → Nat)

/-- The sum of a weight over all records. -/
def total : Nat := c.processes.total fun records => records.total weight

/-- How many records there are. -/
def recordCount : Nat := c.processes.total Table.size

theorem recordCount_eq_total : c.recordCount = c.total fun _ => 1 := by
  unfold recordCount total
  simp only [Table.total_one]

theorem total_attach : (c.attach p).total weight = c.total weight := by
  unfold attach
  by_cases h : c.isAttached p = true
  · rw [if_pos h]
  · rw [if_neg h]
    have hn : c.processes.get? p = none := by simpa [isAttached, Table.contains] using h
    have hs := c.processes.total_set p ∅ fun records => records.total weight
    rw [hn] at hs
    exact hs

theorem total_detach :
    (c.detach p).2.total weight + (c.processes.get? p).elim 0 (·.total weight) =
      c.total weight := by
  unfold detach
  by_cases h : c.isAttached p = true
  · rw [if_pos h]
    exact c.processes.total_erase p fun records => records.total weight
  · rw [if_neg h]
    have hn : c.processes.get? p = none := by simpa [isAttached, Table.contains] using h
    rw [hn]
    rfl

theorem total_keep (r : ModuleRecord) (h : c.isAttached p = true) :
    (c.keep p r).total weight + (c.record? p r.base).elim 0 weight =
      c.total weight + weight r := by
  obtain ⟨records, hp⟩ := (c.isAttached_iff p).mp h
  have hrecords := records.total_set r.base r weight
  have hprocesses := c.processes.total_set p (records.set r.base r)
    fun records => records.total weight
  rw [hp] at hprocesses
  simp only [Option.elim] at hprocesses
  have hr : c.record? p r.base = records.get? r.base := by simp [record?, hp]
  have hk : (c.keep p r).total weight =
      (c.processes.set p (records.set r.base r)).total fun records => records.total weight := by
    rw [keep, hp]
    rfl
  have ht : c.total weight = c.processes.total fun records => records.total weight := rfl
  rw [hk, hr, ht]
  omega

theorem total_unload :
    (c.unload p b).2.total weight + (c.record? p b).elim 0 weight = c.total weight := by
  unfold unload record?
  cases hp : c.processes.get? p with
  | none => rfl
  | some records =>
    dsimp only [Option.bind_eq_bind, Option.bind_some]
    by_cases hb : records.contains b = true
    · rw [if_pos hb]
      have hrecords := records.total_erase b weight
      have hprocesses := c.processes.total_set p (records.erase b)
        fun records => records.total weight
      rw [hp] at hprocesses
      simp only [Option.elim] at hprocesses
      have hk : ({ c with processes := c.processes.set p (records.erase b) }).total weight =
          (c.processes.set p (records.erase b)).total fun records => records.total weight := rfl
      have ht : c.total weight = c.processes.total fun records => records.total weight := rfl
      rw [hk, ht]
      omega
    · rw [if_neg hb]
      have hn : records.get? b = none := by simpa [Table.contains] using hb
      rw [hn]
      rfl

/-- A new record adds its weight. -/
theorem total_load_of_new (path : Option String) (hp : c.isAttached p = true)
    (h : c.record? p b = none) :
    (c.load p b path).2.total weight = c.total weight + weight { base := b, path } := by
  have hk := c.total_keep p weight { base := b, path } hp
  rw [h] at hk
  rw [c.load_of_new p b path hp h]
  exact hk

end ModuleCache

end Postmortem
