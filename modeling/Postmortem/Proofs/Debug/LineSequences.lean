import Mathlib
import Postmortem.Debug.LineTable

/-!
# The row that covers an address

Line tables are made of sequences, each of which describes one piece of code and ends with a row
behind it. Sequences come in any order, and rows at address zero may stand anywhere between and
inside them. The search for a row answers from the sequence whose piece of code holds the address,
as if it were the only one.
-/
namespace Postmortem.Debug

/-- The rows of one piece of code: those that start lines, by their addresses, and one behind the
last of them that only ends the sequence. -/
structure RowSequence where
  body : List LineRow
  ending : LineRow
  body_ne_nil : body ≠ []
  endSequence_body : ∀ row ∈ body, row.endSequence = false
  endSequence_ending : ending.endSequence = true
  address_ne_zero : ∀ row ∈ body, row.address ≠ 0
  ordered : body.Pairwise fun row next => row.address ≤ next.address
  last_lt_ending : (body.getLast body_ne_nil).address < ending.address

namespace RowSequence

def rows (q : RowSequence) : List LineRow := q.body ++ [q.ending]

/-- The addresses of the code: from the first row up to but not including the one that ends the
sequence. -/
def range (q : RowSequence) : Set Nat :=
  Set.Ico (q.body.head q.body_ne_nil).address q.ending.address

/-- The row that counts for an address: the first one at that address or, where there is none, the
last one before it. -/
inductive Covers (q : RowSequence) (address : Nat) : LineRow → Prop
  | exact {before after : List LineRow} {row : LineRow} (hbody : q.body = before ++ row :: after)
      (hrow : row.address = address) (hfirst : ∀ other ∈ before, other.address ≠ address) :
      q.Covers address row
  | preceding {before after : List LineRow} {row : LineRow}
      (hbody : q.body = before ++ row :: after) (hrow : row.address < address)
      (hnone : ∀ other ∈ q.body, other.address ≠ address)
      (hlast : ∀ other ∈ after, ¬ other.address < address) : q.Covers address row

variable {q : RowSequence} {address : Nat}

theorem head_le {row : LineRow} (h : row ∈ q.body) :
    (q.body.head q.body_ne_nil).address ≤ row.address := by
  obtain ⟨first, rest, hbody⟩ := List.exists_cons_of_ne_nil q.body_ne_nil
  have hordered := q.ordered
  simp only [hbody, List.head_cons, List.pairwise_cons, List.mem_cons] at h hordered ⊢
  obtain rfl | h := h
  · exact Nat.le_refl _
  · exact hordered.1 row h

theorem lt_ending {row : LineRow} (h : row ∈ q.body) : row.address < q.ending.address := by
  have hlast := q.last_lt_ending
  have hordered := q.ordered
  rw [← List.dropLast_concat_getLast q.body_ne_nil] at h hordered
  obtain hinit | hend := List.mem_append.mp h
  · have hle := (List.pairwise_append.mp hordered).2.2 row hinit _ (List.mem_singleton_self _)
    omega
  · rwa [List.mem_singleton.mp hend]

theorem ending_ne_zero : q.ending.address ≠ 0 := by
  have hlast := q.last_lt_ending
  omega

/-- Outside of the code either no row of the body is before the address or all rows are that are
not behind it. -/
theorem outside_of_notMem_range (h : address ∉ q.range) :
    (∀ row ∈ q.body, address < row.address) ∨ q.ending.address ≤ address := by
  by_cases hend : q.ending.address ≤ address
  · exact .inr hend
  · refine .inl fun row hrow => ?_
    have hfirst := head_le hrow
    simp only [range, Set.mem_Ico, not_and] at h
    omega

end RowSequence

namespace LineRow

variable {address : Nat} {previous : Option LineRow} {rows rest body : List LineRow}

/-! ## One row -/

/-- Rows at address zero count for nothing. -/
theorem nearestAfter?_filter (address : Nat) (previous : Option LineRow) (rows : List LineRow) :
    nearestAfter? address previous (rows.filter (·.address ≠ 0)) =
      nearestAfter? address previous rows := by
  induction rows generalizing previous with
  | nil => rfl
  | cons row rows ih =>
    by_cases hzero : row.address = 0
    · rw [List.filter_cons_of_neg (by simpa using hzero), ih, nearestAfter?, if_pos hzero]
    · rw [List.filter_cons_of_pos (by simpa using hzero)]
      simp only [nearestAfter?, ih]

/-- The row that is remembered does not cover the address if the next one is not behind it. -/
theorem filter_eq_none {bound : Nat}
    (h : ∀ p ∈ previous, p.address < address → bound ≤ address) :
    (previous.filter fun p => p.address < address ∧ address < bound) = none := by
  refine Option.filter_eq_none_iff.mpr fun p hp => ?_
  simp only [decide_eq_true_eq, not_and, Nat.not_lt]
  exact h p hp

/-- A row that neither covers nor bounds what covers the address is remembered. -/
theorem nearestAfter?_cons {row : LineRow} (hzero : row.address ≠ 0)
    (hrow : row.endSequence = false) (hne : row.address ≠ address)
    (hgap : ∀ p ∈ previous, p.address < address → row.address ≤ address) :
    nearestAfter? address previous (row :: rest) = nearestAfter? address (some row) rest := by
  rw [nearestAfter?, if_neg hzero, filter_eq_none hgap]
  simp [hrow, hne]

/-- The row that ends a sequence is not remembered, nor is what came before it. -/
theorem nearestAfter?_ending {row : LineRow} (hzero : row.address ≠ 0)
    (hrow : row.endSequence = true)
    (hgap : ∀ p ∈ previous, p.address < address → row.address ≤ address) :
    nearestAfter? address previous (row :: rest) = nearestAfter? address none rest := by
  rw [nearestAfter?, if_neg hzero, filter_eq_none hgap]
  simp [hrow]

/-- A row at the address is the answer. -/
theorem nearestAfter?_at {row : LineRow} (hzero : row.address ≠ 0)
    (hrow : row.endSequence = false) (hat : row.address = address) :
    nearestAfter? address previous (row :: rest) = some row := by
  rw [nearestAfter?, if_neg hzero, filter_eq_none fun _ _ _ => hat.le]
  simp [hrow, hat]

/-- A row behind the address makes the one that is remembered the answer. -/
theorem nearestAfter?_behind {row p : LineRow} (hp : p.address < address)
    (hrow : address < row.address) :
    nearestAfter? address (some p) (row :: rest) = some p := by
  have hzero : row.address ≠ 0 := by omega
  simp [nearestAfter?, hzero, Option.filter, hp, hrow]

/-! ## The rows of a sequence -/

/-- Rows between which the address does not fall leave the last of them remembered. -/
theorem nearestAfter?_append (hzero : ∀ row ∈ body, row.address ≠ 0)
    (hbody : ∀ row ∈ body, row.endSequence = false) (hne : ∀ row ∈ body, row.address ≠ address)
    (hgap : ∀ p ∈ previous.toList ++ body, p.address < address →
      ∀ row ∈ body, row.address ≤ address) :
    nearestAfter? address previous (body ++ rest) =
      nearestAfter? address (body.getLast?.or previous) rest := by
  induction body generalizing previous with
  | nil => rfl
  | cons row body ih =>
    simp only [List.forall_mem_cons] at hzero hbody hne
    have hstep : ∀ p ∈ previous, p.address < address → row.address ≤ address := fun p hp hlt =>
      hgap p (List.mem_append_left _ (Option.mem_toList.mpr hp)) hlt row List.mem_cons_self
    rw [List.cons_append, nearestAfter?_cons hzero.1 hbody.1 hne.1 hstep,
      ih hzero.2 hbody.2 hne.2]
    · cases body <;> simp [List.getLast?_cons]
    · intro p hp hlt next hnext
      refine hgap p ?_ hlt next (List.mem_cons_of_mem row hnext)
      exact List.mem_append_right _ (by simpa using hp)

end LineRow

namespace RowSequence

open LineRow

variable {q : RowSequence} {address : Nat} {rest : List LineRow}

/-- A sequence of other code is gone through. -/
theorem nearestAfter?_of_notMem (h : address ∉ q.range) :
    nearestAfter? address none (q.rows ++ rest) = nearestAfter? address none rest := by
  have houtside := outside_of_notMem_range h
  have hne : ∀ row ∈ q.body, row.address ≠ address := by
    intro row hrow hat
    obtain hbehind | hend := houtside
    · exact absurd (hbehind row hrow) (by omega)
    · exact absurd (lt_ending hrow) (by omega)
  have hgap : ∀ p ∈ q.body, p.address < address → ∀ row ∈ q.rows, row.address ≤ address := by
    intro p hp hlt row hrow
    obtain hbehind | hend := houtside
    · exact absurd (hbehind p hp) (by omega)
    · obtain hbody | hlast := List.mem_append.mp hrow
      · exact (lt_ending hbody).le.trans hend
      · rwa [List.mem_singleton.mp hlast]
  rw [rows, List.append_assoc, nearestAfter?_append q.address_ne_zero q.endSequence_body hne]
  · refine nearestAfter?_ending ending_ne_zero q.endSequence_ending fun p hp hlt => ?_
    have hmem : p ∈ q.body := List.mem_of_getLast? (by simpa using hp)
    exact hgap p hmem hlt _ (by simp [rows])
  · intro p hp hlt row hrow
    exact hgap p (by simpa using hp) hlt row (by simp [rows, hrow])

/-- The rows before one that starts at or before an address start before it, unless they are at that
very address. -/
theorem address_lt_of_before {before after : List LineRow} {row other : LineRow}
    (hbody : q.body = before ++ row :: after) (hother : other ∈ before)
    (hrow : row.address ≤ address) (hne : other.address ≠ address) : other.address < address := by
  have hordered := q.ordered
  rw [hbody] at hordered
  have hle := (List.pairwise_append.mp hordered).2.2 other hother row List.mem_cons_self
  omega

/-- The rows in front of an address are gone through, and the last of them is remembered. -/
theorem nearestAfter?_front {front back : List LineRow} (hbody : q.body = front ++ back)
    (hfront : ∀ row ∈ front, row.address < address) :
    nearestAfter? address none (q.rows ++ rest) =
      nearestAfter? address front.getLast? (back ++ q.ending :: rest) := by
  have hmem : ∀ row ∈ front, row ∈ q.body := fun row hrow => by simp [hbody, hrow]
  rw [rows, hbody, List.append_assoc, List.append_assoc, List.singleton_append,
    nearestAfter?_append (fun row hrow => q.address_ne_zero row (hmem row hrow))
      (fun row hrow => q.endSequence_body row (hmem row hrow))
      (fun row hrow => (hfront row hrow).ne)
      (fun _ _ _ row hrow => (hfront row hrow).le), Option.or_none]

/-- Some row counts for an address at or behind the first row. -/
theorem exists_covers (h : (q.body.head q.body_ne_nil).address ≤ address) :
    ∃ row, q.Covers address row := by
  cases hat : q.body.find? (·.address = address) with
  | some row =>
    obtain ⟨hrow, before, after, hbody, hfirst⟩ := List.find?_eq_some_iff_append.mp hat
    exact ⟨row, .exact hbody (by simpa using hrow) (by simpa using hfirst)⟩
  | none =>
    have hnone : ∀ other ∈ q.body, other.address ≠ address := by
      simpa using List.find?_eq_none.mp hat
    have hhead : (q.body.head q.body_ne_nil).address < address :=
      lt_of_le_of_ne h (hnone _ (List.head_mem q.body_ne_nil))
    -- The last row before the address is the first such row from behind.
    cases hbehind : q.body.reverse.find? (·.address < address) with
    | none =>
      have hlate := List.find?_eq_none.mp hbehind _
        (List.mem_reverse.mpr (List.head_mem q.body_ne_nil))
      exact absurd hhead (by simpa using hlate)
    | some row =>
      obtain ⟨hrow, behind, front, hreverse, hlast⟩ := List.find?_eq_some_iff_append.mp hbehind
      have hbody : q.body = front.reverse ++ row :: behind.reverse := by
        simpa using congrArg List.reverse hreverse
      exact ⟨row, .preceding hbody (by simpa using hrow) hnone (by simpa using hlast)⟩

/-- The row that counts for an address before the end is the answer. -/
theorem Covers.nearestAfter?_eq {row : LineRow} (h : q.Covers address row)
    (hend : address < q.ending.address) :
    nearestAfter? address none (q.rows ++ rest) = some row := by
  cases h with
  | exact hbody hrow hfirst =>
    have hmem : row ∈ q.body := by simp [hbody]
    rw [nearestAfter?_front hbody fun other hother =>
      address_lt_of_before hbody hother hrow.le (hfirst other hother)]
    exact nearestAfter?_at (q.address_ne_zero row hmem) (q.endSequence_body row hmem) hrow
  | @preceding before after row hbody hrow hnone hlast =>
    have hfront : ∀ other ∈ before ++ [row], other.address < address := by
      intro other hother
      obtain hbefore | hself := List.mem_append.mp hother
      · exact address_lt_of_before hbody hbefore hrow.le (hnone other (by simp [hbody, hbefore]))
      · rwa [List.mem_singleton.mp hself]
    rw [nearestAfter?_front (by rw [hbody, List.append_cons]) hfront, List.getLast?_concat]
    -- What comes next is behind the address, be it a further row or the end.
    cases after with
    | nil => exact nearestAfter?_behind hrow hend
    | cons next after =>
      have hle := hlast next List.mem_cons_self
      have hne := hnone next (by simp [hbody])
      exact nearestAfter?_behind hrow (by omega)

/-! ## Several sequences -/

variable {qs : List RowSequence}

/-- Sequences of other code answer nothing. -/
theorem nearest?_of_forall_notMem (h : ∀ q ∈ qs, address ∉ q.range) :
    nearest? (qs.flatMap rows) address = none := by
  unfold nearest?
  induction qs with
  | nil => rfl
  | cons q qs ih =>
    rw [List.forall_mem_cons] at h
    rw [List.flatMap_cons, nearestAfter?_of_notMem h.1, ih h.2]

/-- The one sequence that holds an address answers, wherever it stands. -/
theorem exists_nearest?_of_mem (hdisjoint : qs.Pairwise fun p q => Disjoint p.range q.range)
    {q : RowSequence} (hq : q ∈ qs) (h : address ∈ q.range) :
    ∃ row, nearest? (qs.flatMap rows) address = some row ∧ q.Covers address row := by
  unfold nearest?
  induction qs with
  | nil => cases hq
  | cons p qs ih =>
    rw [List.pairwise_cons] at hdisjoint
    rw [List.flatMap_cons]
    obtain rfl | hq := List.mem_cons.mp hq
    · obtain ⟨row, hrow⟩ := exists_covers h.1
      exact ⟨row, hrow.nearestAfter?_eq h.2, hrow⟩
    · have hp : address ∉ p.range := Set.disjoint_right.mp (hdisjoint.1 q hq) h
      rw [nearestAfter?_of_notMem hp]
      exact ih hdisjoint.2 hq

/-- In a table of sequences of different code, between and in which there may be rows at address
zero, an address is answered from the sequence that holds it, and without those rows alike. -/
theorem nearest?_sequences {table : List LineRow}
    (htable : table.filter (·.address ≠ 0) = qs.flatMap rows)
    (hdisjoint : qs.Pairwise fun p q => Disjoint p.range q.range) (address : Nat) :
    (nearest? table address = none ↔ ∀ q ∈ qs, address ∉ q.range) ∧
      (∀ q ∈ qs, address ∈ q.range →
        ∃ row, nearest? table address = some row ∧ q.Covers address row) ∧
      nearest? table address = nearest? (qs.flatMap rows) address := by
  have hsame : nearest? table address = nearest? (qs.flatMap rows) address := by
    rw [← htable]
    exact (nearestAfter?_filter address none table).symm
  rw [hsame]
  refine ⟨⟨fun hnone q hq hmem => ?_, nearest?_of_forall_notMem⟩,
    fun q hq hmem => exists_nearest?_of_mem hdisjoint hq hmem, rfl⟩
  obtain ⟨row, hrow, _⟩ := exists_nearest?_of_mem hdisjoint hq hmem
  simp [hnone] at hrow

/-! ## Two sequences that are not in order -/

def upper : RowSequence where
  body := [⟨0x200, 5, 0, false⟩, ⟨0x208, 6, 0, false⟩, ⟨0x208, 7, 0, false⟩]
  ending := ⟨0x210, 7, 0, true⟩
  body_ne_nil := by decide
  endSequence_body := by decide
  endSequence_ending := rfl
  address_ne_zero := by decide
  ordered := by decide
  last_lt_ending := by decide

def lower : RowSequence where
  body := [⟨0x100, 1, 0, false⟩]
  ending := ⟨0x200, 2, 0, true⟩
  body_ne_nil := by decide
  endSequence_body := by decide
  endSequence_ending := rfl
  address_ne_zero := by decide
  ordered := by decide
  last_lt_ending := by decide

/-- The two sequences, the upper one first, with rows at address zero before a row and its
successor, and between the sequences. -/
def withZeroRows : List LineRow :=
  [⟨0x200, 5, 0, false⟩, ⟨0, 9, 0, true⟩, ⟨0x208, 6, 0, false⟩, ⟨0x208, 7, 0, false⟩,
    ⟨0, 9, 0, false⟩, ⟨0x210, 7, 0, true⟩, ⟨0, 9, 0, false⟩, ⟨0x100, 1, 0, false⟩,
    ⟨0x200, 2, 0, true⟩]

/-- The row before an address counts although a row at address zero stands behind it, and of two
rows at one address the first one does. Where the lower sequence ends the upper one begins. -/
theorem withZeroRows_nearest :
    upper.Covers 0x204 ⟨0x200, 5, 0, false⟩ ∧ upper.Covers 0x208 ⟨0x208, 6, 0, false⟩ ∧
      lower.Covers 0x1ff ⟨0x100, 1, 0, false⟩ ∧ nearest? withZeroRows 0x210 = none := by
  have htable : withZeroRows.filter (·.address ≠ 0) = [upper, lower].flatMap rows := by decide
  have hdisjoint : [upper, lower].Pairwise fun p q => Disjoint p.range q.range := by
    simp [range, upper, lower, Set.Ico_disjoint_Ico]
  have hcovers (q : RowSequence) (hq : q ∈ [upper, lower]) (address : Nat)
      (hmem : address ∈ q.range) (row : LineRow) (hrow : nearest? withZeroRows address = some row) :
      q.Covers address row := by
    obtain ⟨found, hfound, h⟩ := (nearest?_sequences htable hdisjoint address).2.1 q hq hmem
    rwa [← Option.some.inj (hfound.symm.trans hrow)]
  refine ⟨hcovers upper (by simp) _ ?_ _ (by decide), hcovers upper (by simp) _ ?_ _ (by decide),
    hcovers lower (by simp) _ ?_ _ (by decide), ?_⟩
  · simp [range, upper]
  · simp [range, upper]
  · simp [range, lower]
  · refine (nearest?_sequences htable hdisjoint 0x210).1.mpr ?_
    simp [range, upper, lower]

end RowSequence

end Postmortem.Debug
