import Postmortem.Json.Record
import Postmortem.Proofs.Text.Hex

/-!
# Strings of JSON

A string is written with escapes or without them, and is read back in any spelling. A string that is
not wanted is passed over.
-/
namespace Postmortem.Json

open Text

namespace Reader

variable {α β : Type}

/-! ## Steps of a reader -/

@[simp] theorem pure_eq_ok (a : α) : (pure a : Except Fault α) = .ok a := rfl

@[simp] theorem ok_bind (a : α) (f : α → Except Fault β) : (Except.ok a >>= f) = f a := rfl

@[simp] theorem run_peek? (cs : List Char) : peek?.run cs = .ok (cs.head?, cs) := rfl

@[simp] theorem run_drop (cs : List Char) : drop.run cs = .ok ((), cs.tail) := rfl

@[simp] theorem run_next (c : Char) (rest : List Char) : next.run (c :: rest) = .ok (c, rest) := rfl

@[simp] theorem run_word (cs rest : List Char) : (word cs).run (cs ++ rest) = .ok ((), rest) := by
  induction cs with
  | nil => rfl
  | cons c cs ih => simpa [word] using ih

/-- Whether some characters up to a quote are read as a name. -/
def Spells (spelling : List Char) (name : String) : Prop :=
  ∀ rest, string.run (spelling ++ '"' :: rest) = .ok (name, rest)

end Reader

open Reader

/-! ## Spellings -/

/-- What may follow a backslash, with the character that is meant. -/
def escapes : List (Char × Char) :=
  [('"', '"'), ('\\', '\\'), ('/', '/'), ('b', '\x08'), ('f', '\x0c'), ('n', '\n'), ('r', '\r'),
    ('t', '\t')]

/-- Four hexadecimal digits and their number. -/
structure IsQuad (digits : List Char) (n : Nat) : Prop where
  length_eq : digits.length = 4
  value : hexFrom? 0 digits = some n

/-- The texts of a character after a backslash. By number, a character outside of the first plane is
written in two halves. -/
inductive IsEscape : List Char → Char → Prop
  | simple {e c : Char} (h : (e, c) ∈ escapes) : IsEscape [e] c
  | quad {digits : List Char} {c : Char} (h : IsQuad digits c.toNat) : IsEscape ('u' :: digits) c
  | halves {high low : List Char} {c : Char} (hc : 0x10000 ≤ c.toNat)
      (hhigh : IsQuad high (0xD800 + (c.toNat - 0x10000) / 0x400))
      (hlow : IsQuad low (0xDC00 + (c.toNat - 0x10000) % 0x400)) :
      IsEscape ('u' :: (high ++ '\\' :: 'u' :: low)) c

/-- The texts of a character in a string. -/
inductive IsCharacter : List Char → Char → Prop
  | plain {c : Char} (hquote : c ≠ '"') (hbackslash : c ≠ '\\') (hvisible : 0x20 ≤ c.toNat) :
      IsCharacter [c] c
  | escaped {text : List Char} {c : Char} (h : IsEscape text c) : IsCharacter ('\\' :: text) c

/-- The texts of characters one after the other. -/
inductive IsString : List Char → List Char → Prop
  | nil : IsString [] []
  | cons {text texts : List Char} {c : Char} {cs : List Char} (hc : IsCharacter text c)
      (hcs : IsString texts cs) : IsString (text ++ texts) (c :: cs)

theorem isString_of_plain {cs : List Char}
    (h : ∀ c ∈ cs, c ≠ '"' ∧ c ≠ '\\' ∧ 0x20 ≤ c.toNat) : IsString cs cs := by
  induction cs with
  | nil => exact .nil
  | cons c cs ih =>
    obtain ⟨⟨hquote, hbackslash, hvisible⟩, hcs⟩ := List.forall_mem_cons.mp h
    exact .cons (.plain hquote hbackslash hvisible) (ih hcs)

theorem toNat_cases (c : Char) : c.toNat < 0xD800 ∨ (0xDFFF < c.toNat ∧ c.toNat < 0x110000) :=
  c.valid

theorem simpleEscape?_of_mem {e c : Char} (h : (e, c) ∈ escapes) : simpleEscape? e = some c := by
  simp only [escapes, List.mem_cons, List.not_mem_nil, or_false, Prod.mk.injEq] at h
  obtain ⟨rfl, rfl⟩ | ⟨rfl, rfl⟩ | ⟨rfl, rfl⟩ | ⟨rfl, rfl⟩ | ⟨rfl, rfl⟩ | ⟨rfl, rfl⟩ | ⟨rfl, rfl⟩ |
    ⟨rfl, rfl⟩ := h <;> rfl

theorem IsQuad.run_hexEscape {digits : List Char} {n : Nat} (h : IsQuad digits n)
    (rest : List Char) : hexEscape.run (digits ++ rest) = .ok (n, rest) := by
  obtain ⟨a, b, c, d, rfl⟩ : ∃ a b c d, digits = [a, b, c, d] := by
    match digits, h.length_eq with
    | [a, b, c, d], _ => exact ⟨a, b, c, d, rfl⟩
  have hvalue := h.value
  simp only [hexFrom?, Option.bind_eq_some_iff, Option.some.injEq] at hvalue
  obtain ⟨x, hx, y, hy, z, hz, u, hu, rfl⟩ := hvalue
  simp [hexEscape, hx, hy, hz, hu]

theorem run_escape_halves {high low : List Char} {n m : Nat} (hhigh : IsQuad high n)
    (hlow : IsQuad low m) (hn : isLeading n = true) (hm : isTrailing m = true) (rest : List Char) :
    escape.run ('u' :: (high ++ '\\' :: 'u' :: (low ++ rest))) =
      .ok (Char.ofNat ((n - 0xD800) * 0x400 + (m - 0xDC00) + 0x10000), rest) := by
  have hfirst := hhigh.run_hexEscape ('\\' :: 'u' :: (low ++ rest))
  have hsecond := hlow.run_hexEscape rest
  have hhalf : isTrailing n = false := by
    simp only [isLeading, isTrailing, Bool.and_eq_true, Bool.and_eq_false_iff, decide_eq_true_eq,
      decide_eq_false_iff_not] at hn ⊢
    omega
  simp [escape, unicodeEscape, hfirst, hsecond, hhalf, hn, hm]

theorem IsEscape.run_escape {text : List Char} {c : Char} (h : IsEscape text c)
    (rest : List Char) : escape.run (text ++ rest) = .ok (c, rest) := by
  have hlimit := toNat_cases c
  cases h with
  | @simple e _ h =>
    have hsimple := simpleEscape?_of_mem h
    have hu : e ≠ 'u' := by
      rintro rfl
      cases hsimple
    simp [escape, hsimple]
  | quad h =>
    have hleading : isLeading c.toNat = false := by
      simp only [isLeading, Bool.and_eq_false_iff, decide_eq_false_iff_not]
      omega
    have htrailing : isTrailing c.toNat = false := by
      simp only [isTrailing, Bool.and_eq_false_iff, decide_eq_false_iff_not]
      omega
    simp [escape, unicodeEscape, h.run_hexEscape rest, hleading, htrailing]
  | @halves high low _ hc hhigh hlow =>
    have hread := run_escape_halves hhigh hlow
      (by simp only [isLeading, Bool.and_eq_true, decide_eq_true_eq]; omega)
      (by simp only [isTrailing, Bool.and_eq_true, decide_eq_true_eq]; omega) rest
    rw [Nat.add_sub_cancel_left, Nat.add_sub_cancel_left, Nat.div_add_mod', Nat.sub_add_cancel hc,
      Char.ofNat_toNat] at hread
    simpa using hread

/-- The characters of a string are read up to its closing quote. -/
theorem IsString.run_stringUpTo {text cs : List Char} (h : IsString text cs) (rest : List Char)
    {n : Nat} (hn : text.length < n) :
    (stringUpTo n).run (text ++ '"' :: rest) = .ok (cs, rest) := by
  induction h generalizing n with
  | nil =>
    obtain ⟨n, rfl⟩ := Nat.exists_eq_succ_of_ne_zero (Nat.ne_of_gt hn)
    simp [stringUpTo]
  | cons hc hcs ih =>
    obtain ⟨n, rfl⟩ := Nat.exists_eq_succ_of_ne_zero (Nat.ne_of_gt (Nat.zero_lt_of_lt hn))
    cases hc with
    | plain hquote hbackslash hvisible =>
      rw [List.length_append, List.length_singleton] at hn
      have hrest := ih (n := n) (by omega)
      simp [stringUpTo, Nat.not_lt.mpr hvisible, hrest]
    | escaped h =>
      rw [List.length_append, List.length_cons] at hn
      have hrest := ih (n := n) (by omega)
      have hescape := h.run_escape
      simp [stringUpTo, hescape, hrest]

theorem IsString.spells {text : List Char} {name : String} (h : IsString text name.toList) :
    Spells text name := by
  intro rest
  have hcharacters : (stringUpTo ((text ++ '"' :: rest).length + 1)).run (text ++ '"' :: rest) =
      .ok (name.toList, rest) :=
    h.run_stringUpTo rest (by simp only [List.length_append, List.length_cons]; omega)
  simp_all [string]

theorem run_skipEscape_simple {e c : Char} (h : (e, c) ∈ escapes) (rest : List Char) :
    skipEscape.run (e :: rest) = .ok ((), rest) := by
  have hsimple := simpleEscape?_of_mem h
  have hu : e ≠ 'u' := by
    rintro rfl
    cases hsimple
  simp [skipEscape, hsimple]

theorem IsQuad.run_skipEscape {digits : List Char} {n : Nat} (h : IsQuad digits n)
    (rest : List Char) : skipEscape.run ('u' :: (digits ++ rest)) = .ok ((), rest) := by
  have hdiscard : discard hexEscape = (do let _ ← hexEscape; pure ()) := rfl
  simp [skipEscape, hdiscard, h.run_hexEscape]

/-- A string that is not wanted is passed over. Halves count as two characters then. -/
theorem IsString.run_skipStringUpTo {text cs : List Char} (h : IsString text cs)
    (rest : List Char) {n : Nat} (hn : text.length < n) :
    (skipStringUpTo n).run (text ++ '"' :: rest) = .ok ((), rest) := by
  induction h generalizing n with
  | nil =>
    obtain ⟨n, rfl⟩ := Nat.exists_eq_succ_of_ne_zero (Nat.ne_of_gt hn)
    simp [skipStringUpTo]
  | cons hc hcs ih =>
    obtain ⟨n, rfl⟩ := Nat.exists_eq_succ_of_ne_zero (Nat.ne_of_gt (Nat.zero_lt_of_lt hn))
    simp only [List.length_append] at hn
    cases hc with
    | plain hquote hbackslash hvisible =>
      rw [List.length_singleton] at hn
      simp [skipStringUpTo, Nat.not_lt.mpr hvisible, ih (n := n) (by omega)]
    | escaped h =>
      rw [List.length_cons] at hn
      cases h with
      | simple h =>
        simp [skipStringUpTo, run_skipEscape_simple h, ih (n := n) (by omega)]
      | quad h =>
        simp [skipStringUpTo, h.run_skipEscape, ih (n := n) (by omega)]
      | halves hc hhigh hlow =>
        simp only [List.length_cons, List.length_append] at hn
        obtain ⟨n, rfl⟩ := Nat.exists_eq_succ_of_ne_zero (show n ≠ 0 by omega)
        simp [skipStringUpTo, hhigh.run_skipEscape, hlow.run_skipEscape, ih (n := n) (by omega)]

theorem IsString.run_skipString {text cs : List Char} (h : IsString text cs) (rest : List Char) :
    skipString.run (text ++ '"' :: rest) = .ok ((), rest) := by
  have hcharacters : (skipStringUpTo ((text ++ '"' :: rest).length + 1)).run
      (text ++ '"' :: rest) = .ok ((), rest) :=
    h.run_skipStringUpTo rest (by simp only [List.length_append, List.length_cons]; omega)
  simp_all [skipString]

end Postmortem.Json
