import Postmortem.Proofs.Image.Coverage

/-!
# The order of sections

The section table keeps the sections by address, and those of one address in the order of their
headers. It has each section of the headers once, so a section number, which counts the headers,
leads to the same section in the table as it does in the headers.
-/
namespace Postmortem

/-- Sorting puts elements in order and keeps what held between earlier and later ones where the
order does not tell them apart. -/
theorem pairwise_mergeSort_of_pairwise {α : Type} {le : α → α → Bool} {R : α → α → Prop}
    {l : List α} (htrans : ∀ a b c, le a b → le b c → le a c) (htotal : ∀ a b, le a b || le b a)
    (h : l.Pairwise R) :
    (l.mergeSort le).Pairwise fun a b => le a b = true ∧ (le b a = true → R a b) := by
  rw [← List.mergeSort_zipIdx, List.pairwise_map]
  set pairs := l.zipIdx.mergeSort (List.zipIdxLE le)
  have hperm : pairs.Perm l.zipIdx := List.mergeSort_perm _ _
  have hsorted : pairs.Pairwise fun p q => List.zipIdxLE le p q = true :=
    List.pairwise_mergeSort (List.zipIdxLE_trans htrans) (List.zipIdxLE_total htotal) _
  -- No position occurs twice, so the order of the positions is strict.
  have hdistinct : pairs.Pairwise fun p q => p.2 ≠ q.2 := by
    rw [hperm.pairwise_iff fun hne => Ne.symm hne]
    exact List.pairwise_map.mp (List.zipIdx_map_snd 0 l ▸ List.nodup_range')
  have hplace : ∀ p ∈ pairs, l[p.2]? = some p.1 := fun p hp =>
    List.mem_zipIdx_iff_getElem?.mp (hperm.mem_iff.mp hp)
  refine (hsorted.and hdistinct).imp_of_mem ?_
  rintro p q hp hq ⟨hle, hne⟩
  simp only [List.zipIdxLE] at hle
  split at hle
  · next hpq =>
    refine ⟨hpq, fun hqp => ?_⟩
    rw [if_pos hqp, decide_eq_true_eq] at hle
    obtain ⟨hpl, hpeq⟩ := List.getElem?_eq_some_iff.mp (hplace p hp)
    obtain ⟨hql, hqeq⟩ := List.getElem?_eq_some_iff.mp (hplace q hq)
    rw [← hpeq, ← hqeq]
    exact List.pairwise_iff_getElem.mp h p.2 q.2 hpl hql (by omega)
  · cases hle

variable {sections : List Section} {layout : ImageLayout}

namespace Section

/-- Whether each section has its own position as its index. -/
def Numbered (sections : List Section) : Prop :=
  ∀ (i : Nat) (s : Section), sections[i]? = some s → s.index = i

theorem getElem?_ofHeaders (headers : List SectionHeader) (strings : Option Bytes)
    (layout : ImageLayout) (i : Nat) :
    (ofHeaders headers strings layout)[i]? = headers[i]?.map (ofHeader strings layout i) :=
  List.getElem?_mapIdx

theorem numbered_ofHeaders (headers : List SectionHeader) (strings : Option Bytes)
    (layout : ImageLayout) : Numbered (ofHeaders headers strings layout) := by
  intro i s hs
  rw [getElem?_ofHeaders, Option.map_eq_some_iff] at hs
  obtain ⟨h, _, rfl⟩ := hs
  rfl

/-- The order of the table: by address, and by header where the addresses are the same. -/
def Precedes (s t : Section) : Prop :=
  s.header.rva < t.header.rva ∨ s.header.rva = t.header.rva ∧ s.index < t.index

/-- Whether a section is not behind another one by its address alone. -/
def addressLe (s t : Section) : Bool := s.header.rva ≤ t.header.rva

theorem addressLe_trans (s t u : Section) : addressLe s t → addressLe t u → addressLe s u := by
  simp only [addressLe, decide_eq_true_eq]
  exact UInt32.le_trans

theorem addressLe_total (s t : Section) : (addressLe s t || addressLe t s) = true := by
  simp only [addressLe, Bool.or_eq_true, decide_eq_true_eq]
  exact UInt32.le_total _ _

end Section

namespace SectionTable

open Section

theorem toList_ofList (sections : List Section) (layout : ImageLayout) :
    (ofList sections layout).sections.toList = sections.mergeSort addressLe := by
  rw [ofList, List.toList_toArray]
  rfl

theorem ofList_perm (sections : List Section) (layout : ImageLayout) :
    (ofList sections layout).sections.toList.Perm sections := by
  rw [toList_ofList]
  exact List.mergeSort_perm _ _

/-- Sorting by address keeps the order of the headers where it can. -/
theorem ofList_pairwise (h : Numbered sections) :
    (ofList sections layout).sections.toList.Pairwise Precedes := by
  have hindex : sections.Pairwise fun s t => s.index < t.index := by
    refine List.pairwise_iff_getElem.mpr fun i j hi hj hij => ?_
    rwa [h i _ (List.getElem?_eq_getElem hi), h j _ (List.getElem?_eq_getElem hj)]
  rw [toList_ofList]
  refine (pairwise_mergeSort_of_pairwise addressLe_trans addressLe_total hindex).imp ?_
  rintro s t ⟨hle, hstable⟩
  simp only [addressLe, decide_eq_true_eq, UInt32.le_iff_toNat_le] at hle hstable
  rw [Precedes, UInt32.lt_iff_toNat_lt, ← UInt32.toNat_inj]
  omega

/-- A section number means in the table what it means in the headers. -/
theorem numbered?_ofList (h : Numbered sections) (number : Int16) :
    (ofList sections layout).numbered? number =
      if number ≤ 0 then none else sections[number.toInt.toNat - 1]? := by
  unfold numbered?
  by_cases hle : number ≤ 0
  · rw [if_pos hle, if_pos hle]
  · rw [if_neg hle, if_neg hle, ← Array.find?_toList]
    have hpos : 1 ≤ number.toInt.toNat := by
      rw [Int16.le_iff_toInt_le] at hle
      have hzero : Int16.toInt 0 = 0 := rfl
      omega
    have hmem (s : Section) : s ∈ (ofList sections layout).sections.toList ↔ s ∈ sections :=
      (ofList_perm sections layout).mem_iff
    -- A section with the number is where the number says.
    have hplace (s : Section) (hs : s ∈ sections) (hnumber : s.index + 1 = number.toInt.toNat) :
        sections[number.toInt.toNat - 1]? = some s := by
      obtain ⟨i, hi⟩ := List.mem_iff_getElem?.mp hs
      rw [← hnumber, Nat.add_sub_cancel, h i s hi, hi]
    cases hfound : (ofList sections layout).sections.toList.find?
        fun s => s.index + 1 = number.toInt.toNat with
    | some s =>
      have hnumber := List.find?_some hfound
      rw [hplace s ((hmem s).mp (List.mem_of_find?_eq_some hfound)) (of_decide_eq_true hnumber)]
    | none =>
      rw [eq_comm, Option.eq_none_iff_forall_ne_some]
      intro s hs
      have hnone := List.find?_eq_none.mp hfound s ((hmem s).mpr (List.mem_of_getElem? hs))
      rw [decide_eq_true_eq, h _ s hs] at hnone
      omega

end SectionTable

end Postmortem
