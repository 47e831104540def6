import Mathlib.Tactic.Common
import Postmortem.Image.Header

/-!
# Reading the beginning of a buffer

A buffer that another one begins with holds the same bytes as far as it goes, so every read in it
gives what it gives in the other one, or nothing. A reader built from such reads therefore fails on
the shorter buffer because something is not there, or does on it what it does on the longer one.
-/
namespace Postmortem

namespace Bytes

/-- Whether a buffer is the beginning of another one. -/
def Begins (part whole : Bytes) : Prop := ∃ rest, whole = part ++ rest

theorem begins_append (part rest : Bytes) : part.Begins (part ++ rest) := ⟨rest, rfl⟩

theorem begins_extract (b : Bytes) (n : Nat) : Begins (b.extract 0 n) b := by
  refine ⟨b.extract n (max n b.size), ?_⟩
  rw [ByteArray.extract_append_extract, Nat.zero_min, Nat.max_eq_right (Nat.le_max_left _ _),
    ByteArray.extract_zero_max_size]

/-- Where a read lies wholly in a buffer it gives something. -/
theorem exists_number? (b : Bytes) (offset n : Nat) (h : offset + n ≤ b.size) :
    ∃ v, b.number? offset n = some v := by
  induction n generalizing offset with
  | zero => exact ⟨0, rfl⟩
  | succ n ih =>
    obtain ⟨high, hhigh⟩ := ih (offset + 1) (by omega)
    have hlt : offset < b.size := by omega
    exact ⟨b[offset].toNat + 256 * high, by simp [number?, getElem?_pos b offset hlt, hhigh]⟩

theorem exists_u32? (b : Bytes) (offset : Nat) (h : offset + 4 ≤ b.size) :
    ∃ v, b.u32? offset = some v := by
  obtain ⟨v, hv⟩ := b.exists_number? offset 4 h
  exact ⟨.ofNat v, by rw [u32?, hv, Option.map_some]⟩

end Bytes

namespace Bytes.Begins

variable {part whole : Bytes} (h : part.Begins whole)

include h

theorem size_le : part.size ≤ whole.size := by
  obtain ⟨rest, rfl⟩ := h
  rw [ByteArray.size_append]
  omega

theorem getElem? {i : Nat} {x : UInt8} (hx : part[i]? = some x) : whole[i]? = some x := by
  obtain ⟨rest, rfl⟩ := h
  obtain ⟨hi, rfl⟩ := getElem?_eq_some_iff.mp hx
  have hlt : i < (part ++ rest).size := by
    rw [ByteArray.size_append]
    omega
  rw [getElem?_pos (part ++ rest) i hlt, ByteArray.getElem_append_left hi]

theorem number? {offset n v : Nat} (hv : part.number? offset n = some v) :
    whole.number? offset n = some v := by
  induction n generalizing offset v with
  | zero => exact hv
  | succ n ih =>
    simp only [Bytes.number?, Option.bind_eq_bind, Option.bind_eq_some_iff] at hv ⊢
    obtain ⟨low, hlow, high, hhigh, hv⟩ := hv
    exact ⟨low, h.getElem? hlow, high, ih hhigh, hv⟩

theorem u16? {offset : Nat} {v : UInt16} (hv : part.u16? offset = some v) :
    whole.u16? offset = some v := by
  obtain ⟨n, hn, rfl⟩ := Option.map_eq_some_iff.mp hv
  rw [Bytes.u16?, h.number? hn, Option.map_some]

theorem u32? {offset : Nat} {v : UInt32} (hv : part.u32? offset = some v) :
    whole.u32? offset = some v := by
  obtain ⟨n, hn, rfl⟩ := Option.map_eq_some_iff.mp hv
  rw [Bytes.u32?, h.number? hn, Option.map_some]

theorem u64? {offset : Nat} {v : UInt64} (hv : part.u64? offset = some v) :
    whole.u64? offset = some v := by
  obtain ⟨n, hn, rfl⟩ := Option.map_eq_some_iff.mp hv
  rw [Bytes.u64?, h.number? hn, Option.map_some]

/-- Ranges that lie in the shorter buffer are the same in both. -/
theorem range?_eq {start stop : Nat} (hstop : stop ≤ part.size) :
    whole.range? start stop = part.range? start stop := by
  have hsize := h.size_le
  obtain ⟨rest, rfl⟩ := h
  have hrest : rest.extract (start - part.size) (stop - part.size) = .empty :=
    ByteArray.extract_eq_empty_iff.mpr (by omega)
  have hextract : ByteArray.extract (part ++ rest) start stop = part.extract start stop := by
    rw [ByteArray.extract_append, hrest, ByteArray.append_empty]
  simp only [Bytes.range?, hextract, hstop, Nat.le_trans hstop hsize, and_true]

theorem range? {start stop : Nat} {v : Bytes} (hv : part.range? start stop = some v) :
    whole.range? start stop = some v := by
  have hstop : stop ≤ part.size := by
    unfold Bytes.range? at hv
    split at hv
    · next hbounds => exact hbounds.2
    · cases hv
  rw [h.range?_eq hstop, hv]

theorem slice? {offset length : Nat} {v : Bytes} (hv : part.slice? offset length = some v) :
    whole.slice? offset length = some v := h.range? hv

end Bytes.Begins

/-- Whether a failure says that a structure or a table does not lie wholly in the buffer. -/
inductive ImageError.IsTruncation : ImageError → Prop
  | header (expected actual : Nat) : IsTruncation (.truncatedHeader expected actual)
  | table (kind : TableKind) (expected actual : Nat) :
    IsTruncation (.truncatedTable kind expected actual)

/-- What a reader gives for the beginning of a buffer, beside what it gives for the whole: it fails
because something is not there, or both results are related by `R`, or both are one failure. -/
inductive Cut {α β : Type} (R : α → β → Prop) : Except ImageError α → Except ImageError β → Prop
  | short {e : ImageError} (h : e.IsTruncation) (y : Except ImageError β) : Cut R (.error e) y
  | error (e : ImageError) : Cut R (.error e) (.error e)
  | ok {a : α} {b : β} (h : R a b) : Cut R (.ok a) (.ok b)

namespace Cut

variable {α β γ δ : Type} {R : α → β → Prop} {S : γ → δ → Prop}

/-- Where the whole buffer can be read. -/
theorem of_whole_ok {x : Except ImageError α} {b : β} (h : Cut R x (.ok b)) :
    (∃ e, x = .error e ∧ e.IsTruncation) ∨ ∃ a, x = .ok a ∧ R a b := by
  cases h with
  | short he => exact .inl ⟨_, rfl, he⟩
  | ok hab => exact .inr ⟨_, rfl, hab⟩

/-- Where its beginning can be read. -/
theorem of_part_ok {a : α} {y : Except ImageError β} (h : Cut R (.ok a) y) :
    ∃ b, y = .ok b ∧ R a b := by
  cases h with
  | ok hab => exact ⟨_, rfl, hab⟩

/-- Readers that go on from related results are compared where they go on. -/
theorem bind {x : Except ImageError α} {y : Except ImageError β} {f : α → Except ImageError γ}
    {g : β → Except ImageError δ} (h : Cut R x y) (hfg : ∀ a b, R a b → Cut S (f a) (g b)) :
    Cut S (x >>= f) (y >>= g) := by
  cases h with
  | short he => exact .short he _
  | error e => exact .error e
  | ok hab => exact hfg _ _ hab

theorem bindEq {x y : Except ImageError α} {f : α → Except ImageError γ}
    {g : α → Except ImageError δ} (h : Cut Eq x y) (hfg : ∀ a, Cut S (f a) (g a)) :
    Cut S (x >>= f) (y >>= g) := by
  refine h.bind ?_
  rintro a _ rfl
  exact hfg a

/-- A check that fails for the shorter buffer wherever it fails for the longer one. -/
theorem guard {p q : Prop} [Decidable p] [Decidable q] {e e' : ImageError} {x : Except ImageError α}
    {y : Except ImageError β} {f : PUnit → Except ImageError α} {g : PUnit → Except ImageError β}
    (he : e.IsTruncation) (hqp : q → p) (h : ¬ p → Cut R x y) :
    Cut R (if p then throw e >>= f else x) (if q then throw e' >>= g else y) := by
  by_cases hp : p
  · rw [if_pos hp]
    exact .short he _
  · rw [if_neg hp, if_neg (mt hqp hp)]
    exact h hp

/-- A check that has nothing to do with the size of the buffer. -/
theorem guardEq {p : Prop} [Decidable p] {e : ImageError} {x : Except ImageError α}
    {y : Except ImageError β} {f : PUnit → Except ImageError α} {g : PUnit → Except ImageError β}
    (h : ¬ p → Cut R x y) :
    Cut R (if p then throw e >>= f else x) (if p then throw e >>= g else y) := by
  by_cases hp : p
  · rw [if_pos hp, if_pos hp]
    exact .error e
  · rw [if_neg hp, if_neg hp]
    exact h hp

theorem requireField {value later : Option α} (stop size total : Nat)
    (h : ∀ v, value = some v → later = some v) :
    Cut Eq (Postmortem.requireField value stop size)
      (Postmortem.requireField later stop total) := by
  cases value with
  | none => exact .short (.header stop size) _
  | some v =>
    rw [h v rfl]
    exact .ok rfl

/-- A table that lies in the shorter buffer lies in the longer one. -/
theorem checkTable (table : TableKind) (offset size : Nat) {n m : Nat} (hnm : n ≤ m) :
    Cut (fun _ _ => offset + size ≤ n) (Postmortem.checkTable table offset size n)
      (Postmortem.checkTable table offset size m) := by
  unfold Postmortem.checkTable
  by_cases h : offset + size ≤ n ∧ offset + size ≤ maxOffset
  · rw [if_pos h, if_pos ⟨Nat.le_trans h.1 hnm, h.2⟩]
    exact .ok h.1
  · rw [if_neg h]
    exact .short (.table ..) _

end Cut

end Postmortem
