import Mathlib.Tactic.Common
import Mathlib.Tactic.IntervalCases
import Postmortem.Report.Architecture

/-!
# Numbers that were written in hexadecimal

The digits of a number give back the number, whatever their case and however many zeros stand in
front. An address is written with all the digits that its processor has for one.
-/
namespace Postmortem

namespace Text

/-- The number that begins with `acc` and goes on with hexadecimal digits. -/
def hexFrom? (acc : Nat) : List Char → Option Nat
  | [] => some acc
  | c :: rest => (hexValue? c).bind fun d => hexFrom? (acc * 16 + d) rest

/-- The number that hexadecimal digits stand for. -/
def hexNumber? (s : String) : Option Nat := hexFrom? 0 s.toList

/-- Whether a character is a hexadecimal digit and not in lower case. -/
def IsUpperHex (c : Char) : Prop := ('0' ≤ c ∧ c ≤ '9') ∨ ('A' ≤ c ∧ c ≤ 'F')

theorem hexValue?_toUpper {d : Nat} (h : d < 16) : hexValue? d.digitChar.toUpper = some d := by
  interval_cases d <;> rfl

theorem isUpperHex_toUpper {d : Nat} (h : d < 16) : IsUpperHex d.digitChar.toUpper := by
  unfold IsUpperHex
  interval_cases d <;> decide

theorem hexFrom?_append (acc : Nat) (first rest : List Char) :
    hexFrom? acc (first ++ rest) = (hexFrom? acc first).bind (hexFrom? · rest) := by
  induction first generalizing acc with
  | nil => rfl
  | cons c first ih =>
    rw [List.cons_append, hexFrom?, hexFrom?]
    cases hexValue? c with
    | none => rfl
    | some d => exact ih (acc * 16 + d)

/-- The digits of a number, in either case, are read back as that number. -/
theorem hexFrom?_map_hexDigits {f : Char → Char}
    (hf : ∀ d < 16, hexValue? (f d.digitChar) = some d) (n : Nat) :
    hexFrom? 0 ((hexDigits n).map f) = some n := by
  unfold hexDigits
  induction n using Nat.strongRecOn with
  | _ n ih =>
    by_cases h : n < 16
    · rw [Nat.toDigits_of_lt_base h, List.map_singleton, hexFrom?, hf n h]
      simp [hexFrom?]
    · have hlast : n % 16 < 16 := Nat.mod_lt n (by decide)
      rw [Nat.toDigits_of_base_le (by decide) (Nat.le_of_not_lt h), List.map_append,
        hexFrom?_append, ih (n / 16) (by omega), Option.bind_some, List.map_singleton, hexFrom?,
        hf _ hlast]
      show some (n / 16 * 16 + n % 16) = some n
      rw [Nat.div_add_mod']

/-- What holds of every digit holds of the digits of a number. -/
theorem forall_mem_hexDigits {P : Char → Prop} (hP : ∀ d < 16, P d.digitChar) (n : Nat) :
    ∀ c ∈ hexDigits n, P c := by
  unfold hexDigits
  induction n using Nat.strongRecOn with
  | _ n ih =>
    intro c hc
    by_cases h : n < 16
    · rw [Nat.toDigits_of_lt_base h, List.mem_singleton] at hc
      rw [hc]
      exact hP n h
    · rw [Nat.toDigits_of_base_le (by decide) (Nat.le_of_not_lt h), List.mem_append,
        List.mem_singleton] at hc
      obtain hfirst | rfl := hc
      · exact ih (n / 16) (by omega) c hfirst
      · exact hP _ (Nat.mod_lt n (by decide))

/-- Zeros in front do not count. -/
theorem hexFrom?_zeros (count : Nat) (cs : List Char) :
    hexFrom? 0 (List.replicate count '0' ++ cs) = hexFrom? 0 cs := by
  induction count with
  | zero => rfl
  | succ count ih =>
    rw [List.replicate_succ, List.cons_append, hexFrom?]
    exact ih

/-- A text is a number with so many digits, none of them in lower case. -/
structure WritesHex (digits n : Nat) (s : String) : Prop where
  length_eq : s.length = digits
  isUpperHex : ∀ c ∈ s.toList, IsUpperHex c
  value : hexNumber? s = some n

theorem writesHex_hexPaddedUpper {digits n : Nat} (hdigits : 0 < digits) (hn : n < 16 ^ digits) :
    WritesHex digits n (hexPaddedUpper digits n) := by
  have hlength : ((hexDigits n).map Char.toUpper).length ≤ digits := by
    rw [List.length_map]
    exact (Nat.length_toDigits_le_iff (by decide) hdigits).mpr hn
  have htext : (hexPaddedUpper digits n).toList =
      List.replicate (digits - ((hexDigits n).map Char.toUpper).length) '0' ++
        (hexDigits n).map Char.toUpper := by
    rw [hexPaddedUpper, padLeft, String.toList_append, String.toList_ofList, String.toList_ofList,
      String.length_ofList]
  refine ⟨?_, ?_, ?_⟩
  · rw [← String.length_toList, htext, List.length_append, List.length_replicate]
    omega
  · intro c hc
    rw [htext, List.mem_append] at hc
    obtain hzero | hdigit := hc
    · rw [List.eq_of_mem_replicate hzero]
      exact .inl (by decide)
    · obtain ⟨d, hd, rfl⟩ := List.mem_map.mp hdigit
      exact forall_mem_hexDigits (P := fun c => IsUpperHex c.toUpper)
        (fun _ h => isUpperHex_toUpper h) n d hd
  · rw [hexNumber?, htext, hexFrom?_zeros]
    exact hexFrom?_map_hexDigits (fun _ hd => hexValue?_toUpper hd) n

end Text

namespace Architecture

theorem mask_toNat (arch : Architecture) (a : UInt64) :
    (arch.mask a).toNat = a.toNat % 16 ^ arch.addressDigits := by
  cases arch with
  | x86 =>
    rw [mask, UInt64.toNat_and]
    exact Nat.and_two_pow_sub_one_eq_mod a.toNat 32
  | x64 | arm64 => exact (Nat.mod_eq_of_lt a.toNat_lt).symm

/-- An address is written with all its digits, and they are those of the part that is an address. -/
theorem formatAddress_writes (arch : Architecture) (a : UInt64) :
    Text.WritesHex arch.addressDigits (arch.mask a).toNat (arch.formatAddress a) := by
  have hdigits : 0 < arch.addressDigits := by
    cases arch <;> decide
  refine Text.writesHex_hexPaddedUpper hdigits ?_
  rw [arch.mask_toNat]
  exact Nat.mod_lt _ (Nat.pow_pos (by decide))

end Architecture

end Postmortem
