import Mathlib.Tactic.Common
import Postmortem.Proofs.Image.Written

/-!
# ASCII in UTF-8

A byte of ASCII in the UTF-8 form of a text is a character of its own, and what is before and behind
it are texts again. So a text may be searched for ASCII byte by byte, and cut there.
-/
namespace Postmortem.Text

/-- The UTF-8 bytes of some characters. -/
def encode (cs : List Char) : List UInt8 := cs.flatMap String.utf8EncodeChar

theorem bytes_eq_encode (s : String) : bytes s = encode s.toList := by
  rw [bytes, encode, ← String.utf8Encode_toList, List.utf8Encode, List.data_toByteArray,
    List.toList_toArray]

theorem encode_cons (c : Char) (cs : List Char) :
    encode (c :: cs) = String.utf8EncodeChar c ++ encode cs := rfl

theorem encode_append (first rest : List Char) :
    encode (first ++ rest) = encode first ++ encode rest := List.flatMap_append

theorem encode_eq_nil {cs : List Char} (h : encode cs = []) : cs = [] := by
  cases cs with
  | nil => rfl
  | cons c cs => simp [encode_cons, String.utf8EncodeChar_ne_nil] at h

/-- The byte of a character of ASCII. -/
def asciiByte (c : Char) : UInt8 := UInt8.ofNat c.toNat

/-- The character of a byte of ASCII. -/
def asciiChar (b : UInt8) : Char := Char.ofNat b.toNat

theorem toNat_asciiChar (b : UInt8) : (asciiChar b).toNat = b.toNat := by
  have hb := b.toNat_lt
  rw [asciiChar, Char.toNat_ofNat, if_pos]
  exact .inl (by omega)

theorem asciiChar_asciiByte {c : Char} (h : c.toNat < 0x80) : asciiChar (asciiByte c) = c := by
  rw [asciiChar, asciiByte, UInt8.toNat_ofNat', Nat.mod_eq_of_lt (by omega), Char.ofNat_toNat]

theorem map_asciiChar_asciiByte {cs : List Char} (h : ∀ c ∈ cs, c.toNat < 0x80) :
    (cs.map asciiByte).map asciiChar = cs := by
  rw [List.map_map]
  exact (List.map_congr_left fun c hc => asciiChar_asciiByte (h c hc)).trans (List.map_id' cs)

theorem encode_of_ascii {cs : List Char} (h : ∀ c ∈ cs, c.toNat < 0x80) :
    encode cs = cs.map asciiByte := by
  induction cs with
  | nil => rfl
  | cons c cs ih =>
    obtain ⟨hc, hcs⟩ := List.forall_mem_cons.mp h
    have hone : c.utf8Size = 1 :=
      Char.utf8Size_eq_one_iff.mpr (UInt32.le_iff_toNat_le.mpr (Nat.le_of_lt_succ hc))
    rw [encode_cons, ih hcs, String.utf8EncodeChar_eq_singleton hone]
    rfl

/-- Texts of characters below 128 have a byte for each. -/
theorem bytes_of_ascii {s : String} (h : ∀ c ∈ s.toList, c.toNat < 0x80) :
    bytes s = s.toList.map fun c => UInt8.ofNat c.toNat :=
  (bytes_eq_encode s).trans (encode_of_ascii h)

/-- The encoding of a character has a byte of ASCII only if that is all of it. -/
theorem eq_of_ascii_mem {c : Char} {b : UInt8} (hb : b.toNat < 0x80)
    (h : b ∈ String.utf8EncodeChar c) :
    String.utf8EncodeChar c = [b] ∧ c = asciiChar b := by
  unfold String.utf8EncodeChar at h ⊢
  have hc : c.val.toNat = c.toNat := rfl
  dsimp only at h ⊢
  rw [hc] at h ⊢
  by_cases hone : c.toNat ≤ 127
  · rw [if_pos hone, List.mem_singleton] at h
    have hcode : b.toNat = c.toNat := by
      rw [h, UInt8.toNat_ofNat']
      omega
    rw [if_pos hone, h, ← h, asciiChar, hcode, Char.ofNat_toNat]
    exact ⟨rfl, rfl⟩
  · -- All bytes of a longer character have their first bit set.
    exfalso
    rw [if_neg hone] at h
    split_ifs at h <;>
      simp only [List.mem_cons, List.not_mem_nil, or_false, ← UInt8.toNat_inj,
        UInt8.toNat_ofNat'] at h <;> omega

/-- Whether a byte goes on with a character that began before it. -/
def IsContinuation (b : UInt8) : Prop := 0x80 ≤ b ∧ b ≤ 0xBF

instance (b : UInt8) : Decidable (IsContinuation b) :=
  inferInstanceAs (Decidable (0x80 ≤ b ∧ b ≤ 0xBF))

/-- No text begins inside of a character. -/
theorem not_isContinuation_of_encode {cs : List Char} {b : UInt8} {rest : List UInt8}
    (h : encode cs = b :: rest) : ¬ IsContinuation b := by
  unfold IsContinuation
  rw [UInt8.le_iff_toNat_le, UInt8.le_iff_toNat_le]
  show ¬ (128 ≤ b.toNat ∧ b.toNat ≤ 191)
  cases cs with
  | nil => cases h
  | cons c cs =>
    have hc : c.val.toNat = c.toNat := rfl
    rw [encode_cons, String.utf8EncodeChar] at h
    split_ifs at h <;> obtain ⟨rfl, -⟩ := List.cons.inj h <;> rw [UInt8.toNat_ofNat'] <;> omega

/-- Before and behind a byte of ASCII there are whole characters. -/
theorem split_of_encode {cs : List Char} {b : UInt8} {before after : List UInt8}
    (hb : b.toNat < 0x80) (h : encode cs = before ++ b :: after) :
    ∃ front back, cs = front ++ asciiChar b :: back ∧ encode front = before ∧
      encode back = after := by
  induction cs generalizing before with
  | nil => simp [encode] at h
  | cons c cs ih =>
    rw [encode_cons, List.append_eq_append_iff] at h
    -- The byte is behind the first character, or it is in that one.
    obtain ⟨before, rfl, hrest⟩ | ⟨part, hc, hrest⟩ := h
    · obtain ⟨front, back, rfl, rfl, rfl⟩ := ih hrest
      exact ⟨c :: front, back, rfl, encode_cons c front, rfl⟩
    · cases part with
      | nil =>
        have hnext : encode cs = [] ++ b :: after := hrest.symm
        obtain ⟨front, back, rfl, hfront, rfl⟩ := ih hnext
        refine ⟨c :: front, back, rfl, ?_, rfl⟩
        rw [encode_cons, hc, hfront, List.append_nil, List.append_nil]
      | cons b' part =>
        obtain ⟨rfl, rfl⟩ := List.cons.inj hrest
        obtain ⟨hone, rfl⟩ := eq_of_ascii_mem hb (hc ▸ List.mem_append_right _ List.mem_cons_self)
        rw [hone, List.singleton_eq_append_iff] at hc
        simp only [List.cons.injEq, reduceCtorEq, and_false, or_false] at hc
        obtain ⟨rfl, -, rfl⟩ := hc
        exact ⟨[], cs, rfl, rfl, rfl⟩

/-- Behind bytes of ASCII at the beginning there are whole characters. -/
theorem eq_append_of_encode {cs : List Char} {ascii after : List UInt8}
    (hascii : ∀ b ∈ ascii, b.toNat < 0x80) (h : encode cs = ascii ++ after) :
    ∃ back, cs = ascii.map asciiChar ++ back ∧ encode back = after := by
  induction ascii generalizing cs with
  | nil => exact ⟨cs, rfl, h⟩
  | cons b ascii ih =>
    obtain ⟨hb, hascii⟩ := List.forall_mem_cons.mp hascii
    have hfirst : encode cs = [] ++ b :: (ascii ++ after) := h
    obtain ⟨front, rest, rfl, hfront, hrest⟩ := split_of_encode hb hfirst
    obtain ⟨back, rfl, hback⟩ := ih hascii hrest
    obtain rfl := encode_eq_nil hfront
    exact ⟨back, rfl, hback⟩

/-- A text begins with ASCII if its bytes do. -/
theorem prefix_bytes_iff {ascii : List Char} (hascii : ∀ c ∈ ascii, c.toNat < 0x80)
    {cs : List Char} : ascii.map asciiByte <+: encode cs ↔ ascii <+: cs := by
  constructor
  · rintro ⟨after, hafter⟩
    have hbytes : ∀ b ∈ ascii.map asciiByte, b.toNat < 0x80 := by
      intro b hb
      obtain ⟨c, hc, rfl⟩ := List.mem_map.mp hb
      rw [asciiByte, UInt8.toNat_ofNat']
      exact Nat.lt_of_le_of_lt (Nat.mod_le _ _) (hascii c hc)
    obtain ⟨back, rfl, -⟩ := eq_append_of_encode hbytes hafter.symm
    rw [map_asciiChar_asciiByte hascii]
    exact ⟨back, rfl⟩
  · rintro ⟨back, rfl⟩
    rw [encode_append, encode_of_ascii hascii]
    exact ⟨encode back, rfl⟩

end Postmortem.Text
