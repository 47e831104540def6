import Mathlib.Tactic.Common
import Mathlib.Tactic.IntervalCases
import Postmortem.Text.Numeral

/-!
# Numbers that were written in decimal

A number is read back from its decimal digits, and nothing but digits, with a plus sign in front or
without one, reads as a number.
-/
namespace Postmortem.Text

theorem digitValue?_digitChar {d : Nat} (h : d < 10) : digitValue? d.digitChar = some d := by
  interval_cases d <;> rfl

theorem isDigit_of_digitValue? {c : Char} {d : Nat} (h : digitValue? c = some d) :
    c.isDigit = true := by
  unfold digitValue? at h
  split at h
  · next hc => exact Char.isDigit_iff_toNat.mpr hc
  · cases h

theorem decimalFrom?_append (acc : Nat) (first rest : List Char) :
    decimalFrom? acc (first ++ rest) = (decimalFrom? acc first).bind (decimalFrom? · rest) := by
  induction first generalizing acc with
  | nil => rfl
  | cons c first ih =>
    rw [List.cons_append, decimalFrom?, decimalFrom?]
    cases digitValue? c with
    | none => rfl
    | some d => exact ih (acc * 10 + d)

theorem decimalFrom?_toDigits (n : Nat) : decimalFrom? 0 (Nat.toDigits 10 n) = some n := by
  induction n using Nat.strongRecOn with
  | _ n ih =>
    by_cases h : n < 10
    · rw [Nat.toDigits_of_lt_base h, decimalFrom?, digitValue?_digitChar h]
      simp [decimalFrom?]
    · have hlast : n % 10 < 10 := Nat.mod_lt n (by decide)
      rw [Nat.toDigits_of_base_le (by decide) (Nat.le_of_not_lt h), decimalFrom?_append,
        ih (n / 10) (by omega), Option.bind_some, decimalFrom?, digitValue?_digitChar hlast]
      show some (n / 10 * 10 + n % 10) = some n
      rw [Nat.div_add_mod']

/-- The decimal digits of a number are read back as that number. -/
theorem signedDecimal?_toDigits (n : Nat) : signedDecimal? (Nat.toDigits 10 n) = some n := by
  have hread := decimalFrom?_toDigits n
  have hdigit : ∀ c ∈ Nat.toDigits 10 n, c.isDigit = true := fun c hc =>
    Nat.isDigit_of_mem_toDigits (by decide) (by decide) hc
  cases hdigits : Nat.toDigits 10 n with
  | nil => exact absurd hdigits Nat.toDigits_ne_nil
  | cons c rest =>
    rw [hdigits] at hread hdigit
    have hplus : c ≠ '+' := by
      rintro rfl
      exact absurd (hdigit '+' List.mem_cons_self) (by decide)
    rw [signedDecimal?.eq_2 _ (by rintro cs h; exact hplus (List.cons.inj h).1)]
    exact hread

/-- Whether characters are digits, at least one, with a plus sign in front or without one. -/
def IsNumber (cs : List Char) : Prop :=
  ∃ digits, digits ≠ [] ∧ (∀ c ∈ digits, c.isDigit = true) ∧ (cs = digits ∨ cs = '+' :: digits)

theorem isDigit_of_decimalFrom? {acc n : Nat} {cs : List Char} (h : decimalFrom? acc cs = some n) :
    ∀ c ∈ cs, c.isDigit = true := by
  induction cs generalizing acc with
  | nil => simp
  | cons c rest ih =>
    obtain ⟨d, hd, hrest⟩ := Option.bind_eq_some_iff.mp h
    rw [List.forall_mem_cons]
    exact ⟨isDigit_of_digitValue? hd, ih hrest⟩

theorem isDigit_of_decimal? {n : Nat} {cs : List Char} (h : decimal? cs = some n) :
    cs ≠ [] ∧ ∀ c ∈ cs, c.isDigit = true := by
  cases cs with
  | nil => cases h
  | cons c rest => exact ⟨List.cons_ne_nil c rest, isDigit_of_decimalFrom? h⟩

theorem isNumber_of_signedDecimal? {n : Nat} {cs : List Char} (h : signedDecimal? cs = some n) :
    IsNumber cs := by
  unfold signedDecimal? at h
  split at h
  · next digits =>
    obtain ⟨hne, hdigits⟩ := isDigit_of_decimal? h
    exact ⟨digits, hne, hdigits, .inr rfl⟩
  · obtain ⟨hne, hdigits⟩ := isDigit_of_decimal? h
    exact ⟨cs, hne, hdigits, .inl rfl⟩

end Postmortem.Text
