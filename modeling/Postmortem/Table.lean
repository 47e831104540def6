/-!
# Finite tables

A table gives each of finitely many keys one value. Writing a key that is there replaces its value;
the order in which keys were written does not show in any answer.
-/
namespace Postmortem

structure Table (κ α : Type) where
  entries : List (κ × α)
  nodup : (entries.map Prod.fst).Nodup

namespace Table

variable {κ α : Type}

def empty : Table κ α := ⟨[], by simp⟩

instance : EmptyCollection (Table κ α) := ⟨empty⟩

instance : Inhabited (Table κ α) := ⟨empty⟩

/-- How many keys have a value. -/
def size (t : Table κ α) : Nat := t.entries.length

variable [DecidableEq κ]

/-- The value of a key. -/
def get? (t : Table κ α) (key : κ) : Option α := t.entries.lookup key

def contains (t : Table κ α) (key : κ) : Bool := (t.get? key).isSome

/-- The table without a key. -/
def erase (t : Table κ α) (key : κ) : Table κ α where
  entries := t.entries.filter fun e => e.1 ≠ key
  nodup := t.nodup.sublist (List.filter_sublist.map _)

theorem not_mem_keys_erase (t : Table κ α) (key : κ) :
    key ∉ (t.erase key).entries.map Prod.fst := by
  simp [erase]

/-- The table with a value for a key. -/
def set (t : Table κ α) (key : κ) (value : α) : Table κ α where
  entries := (key, value) :: (t.erase key).entries
  nodup := List.nodup_cons.2 ⟨t.not_mem_keys_erase key, (t.erase key).nodup⟩

theorem lookup_filter_ne (entries : List (κ × α)) (key other : κ) :
    (entries.filter fun e => e.1 ≠ key).lookup other =
      if other = key then none else entries.lookup other := by
  induction entries with
  | nil => simp
  | cons e rest ih =>
    obtain ⟨k, v⟩ := e
    simp only [ne_eq, decide_not, List.lookup_cons] at ih ⊢
    grind

@[simp] theorem get?_empty (key : κ) : (∅ : Table κ α).get? key = none := rfl

@[simp] theorem get?_erase (t : Table κ α) (key other : κ) :
    (t.erase key).get? other = if other = key then none else t.get? other :=
  lookup_filter_ne ..

@[simp] theorem get?_set (t : Table κ α) (key other : κ) (value : α) :
    (t.set key value).get? other = if other = key then some value else t.get? other := by
  by_cases h : other = key
  · simp [get?, set, h]
  · have := get?_erase t key other
    simp only [get?, h, if_false] at this
    simp only [get?, set, List.lookup_cons, beq_eq_false_iff_ne.2 h, if_neg h]
    exact this

theorem get?_of_mem (t : Table κ α) {e : κ × α} (h : e ∈ t.entries) : t.get? e.1 = some e.2 := by
  obtain ⟨entries, hnodup⟩ := t
  rw [get?, List.lookup_eq_some_iff]
  obtain ⟨before, after, rfl⟩ := List.append_of_mem h
  refine ⟨before, after, rfl, ?_⟩
  intro other hother
  -- A second entry for the key would be a second key.
  rw [List.map_append, List.nodup_append] at hnodup
  rw [bne_iff_ne]
  intro hkey
  exact hnodup.2.2 other.1 (List.mem_map_of_mem hother) e.1 (by simp) hkey.symm

theorem mem_entries_iff (t : Table κ α) (e : κ × α) :
    e ∈ t.entries ↔ t.get? e.1 = some e.2 := by
  constructor
  · exact t.get?_of_mem
  · intro h
    obtain ⟨before, later, hentries, -⟩ := List.lookup_eq_some_iff.mp h
    rw [hentries]
    exact List.mem_append_right _ List.mem_cons_self

/-- Of two values that are written for a key the first one leaves no trace. -/
theorem set_set (t : Table κ α) (key : κ) (first value : α) :
    (t.set key first).set key value = t.set key value := by
  simp [set, erase, List.filter_filter]

/-- The later of two entries. -/
def later (a b : UInt64 × α) : UInt64 × α := if a.1 < b.1 then b else a

/-- The entry of the largest key that is not above `address`. -/
def atOrBefore? (t : Table UInt64 α) (address : UInt64) : Option (UInt64 × α) :=
  (t.entries.filter fun e => e.1 ≤ address).foldl
    (fun best e => some (best.elim e (later · e))) none

/-- The latest of some entries is one of them. -/
theorem mem_of_foldl_later (entries : List (UInt64 × α)) (best : Option (UInt64 × α))
    {e : UInt64 × α}
    (h : entries.foldl (fun best e => some (best.elim e (later · e))) best = some e) :
    e ∈ entries ∨ best = some e := by
  induction entries generalizing best with
  | nil => exact .inr h
  | cons first rest ih =>
    obtain hrest | hfirst := ih _ h
    · exact .inl (List.mem_cons_of_mem _ hrest)
    · cases best with
      | none => exact .inl (by simp [← Option.some.inj hfirst])
      | some old =>
        obtain rfl := Option.some.inj hfirst
        simp only [Option.elim, later]
        split
        · exact .inl List.mem_cons_self
        · exact .inr rfl

theorem mem_of_atOrBefore? {t : Table UInt64 α} {address : UInt64} {e : UInt64 × α}
    (h : t.atOrBefore? address = some e) : e ∈ t.entries ∧ e.1 ≤ address := by
  obtain hmem | hnone := mem_of_foldl_later _ none h
  · simpa using hmem
  · cases hnone

end Table

end Postmortem
