import Mathlib.Tactic.Common
import Postmortem.Bytes

/-!
# Buffers byte by byte

What is at each place of a part of a buffer, of a buffer that was filled up with zeros, and of one
that another one was written over. Buffers that have the same at every place are the same.
-/
namespace Postmortem.Bytes

theorem getElem?_data (b : Bytes) (i : Nat) : b.data[i]? = b[i]? := by
  simp only [getElem?_def]
  rfl

theorem size_data (b : Bytes) : b.data.size = b.size := rfl

theorem ext_getElem? {a b : Bytes} (h : ∀ i : Nat, a[i]? = b[i]?) : a = b := by
  apply ByteArray.ext
  apply Array.ext_getElem?
  intro i
  rw [getElem?_data, getElem?_data, h]

theorem getElem?_of_size_le {b : Bytes} {i : Nat} (h : b.size ≤ i) : b[i]? = none :=
  getElem?_neg b i (Nat.not_lt.mpr h)

theorem getElem?_append (a b : Bytes) (i : Nat) :
    (a ++ b)[i]? = if i < a.size then a[i]? else b[i - a.size]? := by
  rw [← getElem?_data, ByteArray.data_append, Array.getElem?_append, size_data, getElem?_data,
    getElem?_data]

theorem getElem?_extract (b : Bytes) (start stop i : Nat) :
    (b.extract start stop)[i]? = if start + i < stop then b[start + i]? else none := by
  rw [← getElem?_data, ByteArray.data_extract, Array.getElem?_extract, size_data, getElem?_data]
  by_cases hi : start + i < b.size
  · grind
  · rw [getElem?_of_size_le (Nat.le_of_not_lt hi)]
    simp

theorem getElem?_zeros (n i : Nat) : (zeros n)[i]? = if i < n then some 0 else none := by
  induction n using Nat.strongRecOn generalizing i with
  | _ n ih =>
    unfold zeros
    by_cases hzero : n = 0
    · simp [hzero]
    · have hhalf := ih (n / 2) (by omega)
      have hdouble : (zeros (n / 2) ++ zeros (n / 2))[i]? =
          if i < n / 2 + n / 2 then some 0 else none := by
        rw [getElem?_append, size_zeros, hhalf, hhalf]
        grind
      rw [if_neg hzero]
      by_cases heven : n % 2 = 0
      · rw [if_pos heven, hdouble]
        congr 2
        omega
      · rw [if_neg heven, ← getElem?_data, ByteArray.data_push, Array.getElem?_push, size_data,
          getElem?_data, hdouble, ByteArray.size_append, size_zeros]
        grind

theorem getElem?_padTo (b : Bytes) (n i : Nat) :
    (b.padTo n)[i]? = if i < b.size then b[i]? else if i < n then some 0 else none := by
  rw [padTo, getElem?_append, getElem?_zeros]
  grind

/-- The first `n` bytes of a buffer, with zeros behind it if it has fewer. -/
def resize (b : Bytes) (n : Nat) : Bytes := Bytes.padTo (b.extract 0 n) n

theorem getElem?_resize (b : Bytes) (n i : Nat) :
    (b.resize n)[i]? = if i < n then some (b[i]?.getD 0) else none := by
  rw [resize, getElem?_padTo, getElem?_extract, ByteArray.size_extract]
  by_cases hi : i < b.size
  · grind
  · rw [getElem?_of_size_le (Nat.le_of_not_lt hi)]
    grind

theorem resize_of_size_le {b : Bytes} {n : Nat} (h : b.size ≤ n) :
    b.resize n = b ++ zeros (n - b.size) := by
  have hwhole : b.extract 0 n = b := by
    apply ext_getElem?
    intro i
    rw [getElem?_extract, Nat.zero_add]
    split
    · rfl
    · exact (getElem?_of_size_le (by omega)).symm
  rw [resize, padTo, hwhole]

theorem getElem?_overwrite (b : Bytes) (offset : Nat) (part : Bytes) (i : Nat) :
    (b.overwrite offset part)[i]? =
      if offset ≤ i ∧ i < offset + part.size ∧ i < b.size then part[i - offset]? else b[i]? := by
  simp only [overwrite, ByteArray.copySlice_eq_append, getElem?_append, getElem?_extract,
    ByteArray.size_append, ByteArray.size_extract, size_data]
  grind

end Postmortem.Bytes
