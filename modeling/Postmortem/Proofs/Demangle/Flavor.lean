import Postmortem.Demangle.Basic
import Postmortem.Proofs.Text.Encoding

/-!
# The kind of a symbol, by characters and by bytes

A symbol is told apart by the characters it begins with and, for one scheme, by the twenty that it
ends with. Whoever has the symbol in UTF-8 counts those back from its end in bytes. A character may
have several bytes, so such a place could lie before the text or inside of a character, where a text
cannot be cut. Neither happens: a place is used only when enough bytes are in front of it, and the
text is cut only behind a byte of ASCII.
-/
namespace Postmortem

namespace Text

/-- Whether a character is a hexadecimal digit, of either case. -/
def IsHexDigit (c : Char) : Prop :=
  ('0' ≤ c ∧ c ≤ '9') ∨ ('a' ≤ c ∧ c ≤ 'f') ∨ ('A' ≤ c ∧ c ≤ 'F')

instance (c : Char) : Decidable (IsHexDigit c) := inferInstanceAs (Decidable (_ ∨ _ ∨ _))

theorem isSome_hexValue?_iff {c : Char} : (hexValue? c).isSome ↔ IsHexDigit c := by
  unfold hexValue? IsHexDigit
  split_ifs <;> simp_all

theorem IsHexDigit.toNat_lt {c : Char} (h : IsHexDigit c) : c.toNat < 0x80 := by
  unfold IsHexDigit at h
  simp only [Char.le_def, UInt32.le_iff_toNat_le] at h
  show c.val.toNat < 0x80
  obtain h | h | h := h
  · exact Nat.lt_of_le_of_lt h.2 (by decide)
  · exact Nat.lt_of_le_of_lt h.2 (by decide)
  · exact Nat.lt_of_le_of_lt h.2 (by decide)

end Text

open Text

/-! ## Bytes that are counted from the end -/

namespace Checked

/-- The place that lies so many bytes before the end of a text. -/
def fromEnd (bytes : List UInt8) (count : Nat) : Option Nat :=
  if count ≤ bytes.length then some (bytes.length - count) else none

/-- The bytes from one place up to another one. -/
def between (bytes : List UInt8) (start stop : Nat) : Option (List UInt8) :=
  if start ≤ stop ∧ stop ≤ bytes.length then some ((bytes.take stop).drop start) else none

/-- The text from a place on, which has to be the beginning of a character or the end. -/
def textFrom (bytes : List UInt8) (start : Nat) : Option (List UInt8) :=
  if start ≤ bytes.length ∧ ∀ b ∈ bytes[start]?, ¬ IsContinuation b then some (bytes.drop start)
  else none

/-- Whether a text ends with a hash element that it does not begin with, as far as its end can be
looked at. -/
def endsWithHash (bytes : List UInt8) : Option Bool :=
  if bytes.getLast? = some (asciiByte 'E') then
    let body := bytes.dropLast
    if 19 < body.length then do
      let marker ← between body (← fromEnd body 19) (← fromEnd body 16)
      if marker = "17h".toList.map asciiByte then
        let digits ← textFrom body (← fromEnd body 16)
        return digits.all fun b => (hexValue? (asciiChar b)).isSome
      else return false
    else return false
  else return false

/-- Whether a symbol in UTF-8 begins with some characters. -/
def begins (bytes : List UInt8) (start : String) : Bool :=
  (start.toList.map asciiByte).isPrefixOf bytes

/-- Whether a symbol in UTF-8 begins or ends as those of Rust do. -/
def isRust (bytes : List UInt8) : Option Bool :=
  if begins bytes "_R" then some true
  else if begins bytes "_ZN" then endsWithHash bytes
  else some false

/-- The kind of a symbol in UTF-8, as far as it can be looked at. -/
def flavor (bytes : List UInt8) : Option Demangle.Flavor := do
  if ← isRust bytes then return .rust
  else if begins bytes "_Z" then return .itanium
  else if begins bytes "?" then return .microsoft
  else return .unknown

/-- Whether bytes end with a hash element that they do not begin with. -/
def EndsWithHash (bytes : List UInt8) : Prop :=
  ∃ before digits : List UInt8,
    bytes = before ++ ("17h".toList.map asciiByte ++ digits) ++ [asciiByte 'E'] ∧
      before ≠ [] ∧ digits.length = 16 ∧ ∀ b ∈ digits, (hexValue? (asciiChar b)).isSome

/-- What is found at the end of a text that has enough bytes there. -/
theorem endsWithHash_eq {before marker digits : List UInt8} (hbefore : before ≠ [])
    (hmarker : marker.length = 3) (hdigits : digits.length = 16) :
    endsWithHash (before ++ (marker ++ digits) ++ [asciiByte 'E']) =
      if marker = "17h".toList.map asciiByte then
        if ∀ b ∈ digits.head?, ¬ IsContinuation b then
          some (digits.all fun b => (hexValue? (asciiChar b)).isSome)
        else none
      else some false := by
  have hlength : (before ++ (marker ++ digits)).length = before.length + 19 := by
    rw [List.length_append, List.length_append, hmarker, hdigits]
  have hpositive := List.length_pos_iff.mpr hbefore
  have hmarkerAt : between (before ++ (marker ++ digits)) before.length (before.length + 3) =
      some marker := by
    rw [between, if_pos (by omega), List.take_length_add_append, List.drop_left,
      List.take_left' hmarker]
  have hhead : (before ++ (marker ++ digits))[before.length + 3]? = digits.head? := by
    rw [← List.append_assoc, List.getElem?_append_right (by simp [hmarker]), List.head?_eq_getElem?]
    simp [hmarker]
  have hdrop : (before ++ (marker ++ digits)).drop (before.length + 3) = digits := by
    rw [← List.append_assoc]
    exact List.drop_left' (by simp [hmarker])
  have hdigitsAt : textFrom (before ++ (marker ++ digits)) (before.length + 3) =
      if ∀ b ∈ digits.head?, ¬ IsContinuation b then some digits else none := by
    rw [textFrom, hhead, hdrop]
    exact if_congr (and_iff_right (by omega)) rfl rfl
  have h19 : fromEnd (before ++ (marker ++ digits)) 19 = some before.length := by
    rw [fromEnd, if_pos (by omega), hlength, Nat.add_sub_cancel]
  have h16 : fromEnd (before ++ (marker ++ digits)) 16 = some (before.length + 3) := by
    rw [fromEnd, if_pos (by omega), hlength]
    congr 1
  unfold endsWithHash
  rw [if_pos List.getLast?_concat, List.dropLast_concat]
  dsimp only
  rw [if_pos (by omega), h19, h16]
  simp only [Option.bind_eq_bind, Option.bind_some, hmarkerAt, hdigitsAt]
  split_ifs <;> rfl

theorem endsWithHash_iff {before marker digits : List UInt8} (hbefore : before ≠ [])
    (hmarker : marker.length = 3) (hdigits : digits.length = 16) :
    EndsWithHash (before ++ (marker ++ digits) ++ [asciiByte 'E']) ↔
      marker = "17h".toList.map asciiByte ∧
        ∀ b ∈ digits, (hexValue? (asciiChar b)).isSome := by
  constructor
  · rintro ⟨before', digits', heq, -, hdigits', hhex⟩
    obtain ⟨heq, -⟩ := List.append_inj' heq rfl
    obtain ⟨-, heq⟩ := List.append_inj' heq (by simp [hmarker, hdigits, hdigits'])
    obtain ⟨rfl, rfl⟩ := List.append_inj' heq (by rw [hdigits, hdigits'])
    exact ⟨rfl, hhex⟩
  · rintro ⟨rfl, hhex⟩
    exact ⟨before, digits, rfl, hbefore, hdigits, hhex⟩

/-- A text of more than twenty bytes that ends in `E`, cut up where a hash element has its parts. -/
theorem exists_parts {body : List UInt8} (h : 19 < body.length) :
    ∃ before marker digits : List UInt8, body = before ++ (marker ++ digits) ∧ before ≠ [] ∧
      marker.length = 3 ∧ digits.length = 16 := by
  refine ⟨body.take (body.length - 19), (body.drop (body.length - 19)).take 3,
    (body.drop (body.length - 19)).drop 3, ?_, ?_, ?_, ?_⟩
  · rw [List.take_append_drop, List.take_append_drop]
  · rw [← List.length_pos_iff, List.length_take]
    omega
  · rw [List.length_take, List.length_drop]
    omega
  · rw [List.length_drop, List.length_drop]
    omega

/-- The end of a text can be looked at when no character goes on behind a byte of ASCII. -/
theorem endsWithHash_spec (bytes : List UInt8)
    (hwhole : ∀ before after, bytes = before ++ asciiByte 'h' :: after →
      ∀ b ∈ after.head?, ¬ IsContinuation b) :
    ∃ found, endsWithHash bytes = some found ∧ (found = true ↔ EndsWithHash bytes) := by
  by_cases hlast : bytes.getLast? = some (asciiByte 'E')
  · obtain ⟨body, rfl⟩ := List.getLast?_eq_some_iff.mp hlast
    by_cases hlength : 19 < body.length
    · obtain ⟨before, marker, digits, rfl, hbefore, hmarker, hdigits⟩ := exists_parts hlength
      rw [endsWithHash_eq hbefore hmarker hdigits, endsWithHash_iff hbefore hmarker hdigits]
      by_cases hmark : marker = "17h".toList.map asciiByte
      · have hcut : ∀ b ∈ digits.head?, ¬ IsContinuation b := by
          intro b hb
          obtain ⟨rest, rfl⟩ := List.head?_eq_some_iff.mp hb
          refine hwhole (before ++ "17".toList.map asciiByte) (b :: rest ++ [asciiByte 'E']) ?_ b
            rfl
          rw [hmark]
          simp
        rw [if_pos hmark, if_pos hcut]
        exact ⟨_, rfl, by simp [hmark]⟩
      · rw [if_neg hmark]
        exact ⟨false, rfl, iff_of_false Bool.false_ne_true fun h => hmark h.1⟩
    · refine ⟨false, ?_, ?_⟩
      · rw [endsWithHash, if_pos hlast, List.dropLast_concat, if_neg hlength]
        rfl
      · refine iff_of_false Bool.false_ne_true ?_
        rintro ⟨before, digits, heq, hbefore, hdigits, -⟩
        obtain ⟨rfl, -⟩ := List.append_inj' heq rfl
        have hpositive := List.length_pos_iff.mpr hbefore
        apply hlength
        simp [hdigits]
        omega
  · refine ⟨false, by rw [endsWithHash, if_neg hlast]; rfl, iff_of_false Bool.false_ne_true ?_⟩
    rintro ⟨before, digits, rfl, -⟩
    exact hlast List.getLast?_concat

end Checked

/-! ## Characters -/

namespace Demangle

theorem isHashElement_iff {cs : List Char} :
    isHashElement cs = true ↔
      ∃ digits : List Char, cs = "17h".toList ++ digits ++ ['E'] ∧ digits.length = 16 ∧
        ∀ d ∈ digits, IsHexDigit d := by
  simp only [← isSome_hexValue?_iff]
  constructor
  · intro h
    unfold isHashElement at h
    split at h
    · next digits =>
      simp only [Bool.and_eq_true, decide_eq_true_eq, List.all_eq_true] at h
      obtain ⟨⟨hlength, hdigits⟩, hlast⟩ := h
      refine ⟨digits.take 16, ?_, by rw [List.length_take, hlength]; rfl, hdigits⟩
      rw [List.append_assoc, ← hlast, List.take_append_drop]
      rfl
    · cases h
  · rintro ⟨digits, rfl, hlength, hdigits⟩
    have htake : (digits ++ ['E']).take 16 = digits := List.take_left' hlength
    have hdrop : (digits ++ ['E']).drop 16 = ['E'] := List.drop_left' hlength
    have htext : "17h".toList ++ digits ++ ['E'] = '1' :: '7' :: 'h' :: (digits ++ ['E']) := rfl
    rw [htext, isHashElement]
    simp only [htake, hdrop, List.length_append, hlength, List.length_singleton, decide_true,
      Bool.true_and, Bool.and_true, List.all_eq_true]
    exact hdigits

/-- Whether a symbol is made of the beginning of a path, anything, and a hash element. -/
def HasHash (cs : List Char) : Prop :=
  ∃ path digits : List Char, cs = "_ZN".toList ++ path ++ ("17h".toList ++ digits ++ ['E']) ∧
    digits.length = 16 ∧ ∀ d ∈ digits, IsHexDigit d

theorem endsWithHash_iff_hasHash {cs : List Char} (h : "_ZN".toList <+: cs) :
    endsWithHash cs = true ↔ HasHash cs := by
  obtain ⟨rest, rfl⟩ := h
  rw [endsWithHash, Bool.and_eq_true, decide_eq_true_eq, isHashElement_iff]
  constructor
  · rintro ⟨hlength, digits, hend, hdigits⟩
    refine ⟨rest.take (rest.length - hashLength), digits, ?_, hdigits⟩
    have hplace : ("_ZN".toList ++ rest).length - hashLength =
        "_ZN".toList.length + (rest.length - hashLength) := by
      rw [List.length_append] at hlength ⊢
      change 3 + 20 ≤ 3 + rest.length at hlength
      change 3 + rest.length - 20 = 3 + (rest.length - 20)
      omega
    rw [hplace, List.drop_length_add_append] at hend
    rw [← hend, List.append_assoc, List.take_append_drop]
  · rintro ⟨path, digits, heq, hlength, hdigits⟩
    have helement : ("17h".toList ++ digits ++ ['E']).length = hashLength := by
      rw [List.length_append, List.length_append, hlength]
      rfl
    have htotal : ("_ZN".toList ++ path ++ ("17h".toList ++ digits ++ ['E'])).length =
        ("_ZN".toList ++ path).length + hashLength := by
      rw [List.length_append, helement]
    rw [heq]
    refine ⟨?_, digits, ?_, hlength, hdigits⟩
    · rw [htotal, List.length_append]
      exact Nat.add_le_add_right (Nat.le_add_right 3 _) _
    · rw [htotal, Nat.add_sub_cancel, List.drop_left]

/-- The hash element of a symbol is seen in its bytes. -/
theorem endsWithHash_encode_iff {cs : List Char} (h : "_ZN".toList <+: cs) :
    Checked.EndsWithHash (encode cs) ↔ HasHash cs := by
  constructor
  · rintro ⟨before, digits, heq, -, hlength, hdigits⟩
    have hlow : ∀ b ∈ digits, b.toNat < 0x80 := fun b hb => by
      rw [← toNat_asciiChar]
      exact (isSome_hexValue?_iff.mp (hdigits b hb)).toNat_lt
    have hmark : encode cs = before ++ asciiByte '1' ::
        ("7h".toList.map asciiByte ++ digits ++ [asciiByte 'E']) := by simpa using heq
    obtain ⟨front, back, rfl, rfl, hback⟩ := split_of_encode (by decide) hmark
    have hascii : ∀ b ∈ "7h".toList.map asciiByte ++ digits ++ [asciiByte 'E'], b.toNat < 0x80 :=
      List.forall_mem_append.mpr
        ⟨List.forall_mem_append.mpr ⟨by simp [asciiByte], hlow⟩, by simp [asciiByte]⟩
    have hend := hback.trans (List.append_nil _).symm
    obtain ⟨rest, rfl, hrest⟩ := eq_append_of_encode hascii hend
    obtain rfl := encode_eq_nil hrest
    -- The mark has none of the first three characters.
    obtain ⟨path, rfl⟩ : "_ZN".toList <+: front := by
      obtain ⟨rest, hrest⟩ := h
      obtain ⟨path, hpath, -⟩ | ⟨part, hpart, hmark⟩ := List.append_eq_append_iff.mp hrest
      · exact ⟨path, hpath.symm⟩
      · cases part with
        | nil => exact ⟨[], by rw [hpart, List.append_nil, List.append_nil]⟩
        | cons c part =>
          obtain ⟨rfl, -⟩ := List.cons.inj hmark
          have hmem : asciiChar (asciiByte '1') ∈ "_ZN".toList :=
            hpart ▸ List.mem_append_right _ List.mem_cons_self
          simp [asciiByte, asciiChar] at hmem
    refine ⟨path, digits.map asciiChar, ?_, by rw [List.length_map, hlength], ?_⟩
    · simp
      decide
    · intro d hd
      obtain ⟨b, hb, rfl⟩ := List.mem_map.mp hd
      exact isSome_hexValue?_iff.mp (hdigits b hb)
  · rintro ⟨path, digits, rfl, hlength, hdigits⟩
    have hlow : ∀ c ∈ "17h".toList ++ digits ++ ['E'], c.toNat < 0x80 :=
      List.forall_mem_append.mpr ⟨List.forall_mem_append.mpr
        ⟨by simp, fun d hd => (hdigits d hd).toNat_lt⟩, by simp⟩
    refine ⟨encode ("_ZN".toList ++ path), digits.map asciiByte, ?_, ?_, ?_, ?_⟩
    · rw [encode_append, encode_of_ascii hlow]
      simp
    · intro hnil
      have := encode_eq_nil hnil
      simp at this
    · rw [List.length_map, hlength]
    · intro b hb
      obtain ⟨d, hd, rfl⟩ := List.mem_map.mp hb
      rw [asciiChar_asciiByte (hdigits d hd).toNat_lt]
      exact isSome_hexValue?_iff.mpr (hdigits d hd)

theorem begins_encode_iff {start : String} (h : ∀ c ∈ start.toList, c.toNat < 0x80)
    (cs : List Char) : Checked.begins (encode cs) start = true ↔ start.toList <+: cs := by
  rw [Checked.begins, List.isPrefixOf_iff_prefix, prefix_bytes_iff h]

/-- The end of a symbol in UTF-8 can always be looked at. -/
theorem endsWithHash_encode {cs : List Char} (h : "_ZN".toList <+: cs) :
    Checked.endsWithHash (encode cs) = some (endsWithHash cs) := by
  obtain ⟨found, hfound, hiff⟩ := Checked.endsWithHash_spec (encode cs) (by
    intro before after hbytes b hb
    obtain ⟨rest, rfl⟩ := List.head?_eq_some_iff.mp hb
    obtain ⟨-, back, -, -, hback⟩ := split_of_encode (by simp [asciiByte]) hbytes
    exact not_isContinuation_of_encode hback)
  rw [hfound, Option.some.injEq, Bool.eq_iff_iff, hiff, endsWithHash_encode_iff h,
    endsWithHash_iff_hasHash h]

theorem HasHash.isPrefix {cs : List Char} (h : HasHash cs) : "_ZN".toList <+: cs := by
  obtain ⟨path, digits, rfl, -⟩ := h
  exact ⟨path ++ ("17h".toList ++ digits ++ ['E']), (List.append_assoc ..).symm⟩

/-- The demangler of a kind of symbols. -/
def Flavor.demangle? : Flavor → Style → String → Option String
  | rust => Rust.demangle?
  | itanium => Itanium.demangle?
  | microsoft => Microsoft.demangle?
  | unknown => fun _ _ => none

theorem demangleOrKeep_eq (style : Style) (symbol : String) :
    demangleOrKeep style symbol =
      ((Flavor.ofSymbol symbol).demangle? style symbol).getD symbol := by
  unfold demangleOrKeep Postmortem.demangle?
  cases Flavor.ofSymbol symbol <;> rfl

namespace Flavor

/-- Whether a symbol begins or ends as those of Rust do. -/
def IsRust (symbol : String) : Prop := "_R".toList <+: symbol.toList ∨ HasHash symbol.toList

theorem isRust_iff (symbol : String) :
    IsRust symbol ↔ "_R".toList <+: symbol.toList ∨
      "_ZN".toList <+: symbol.toList ∧ endsWithHash symbol.toList = true := by
  refine or_congr_right ⟨fun h => ?_, fun h => (endsWithHash_iff_hasHash h.1).mp h.2⟩
  exact ⟨h.isPrefix, (endsWithHash_iff_hasHash h.isPrefix).mpr h⟩

instance (symbol : String) : Decidable (IsRust symbol) := decidable_of_iff' _ (isRust_iff symbol)

/-- The tests of a symbol, one after the other. -/
theorem ofSymbol_eq (symbol : String) :
    ofSymbol symbol =
      if IsRust symbol then .rust
      else if "_Z".toList <+: symbol.toList then .itanium
      else if "?".toList <+: symbol.toList then .microsoft
      else .unknown := by
  simp only [isRust_iff]
  unfold ofSymbol
  split <;> simp_all [List.cons_prefix_iff]

theorem checked_isRust_eq (symbol : String) :
    ∃ found, Checked.isRust (bytes symbol) = some found ∧ (found = true ↔ IsRust symbol) := by
  have hrust := begins_encode_iff (show ∀ c ∈ "_R".toList, c.toNat < 0x80 by simp) symbol.toList
  have hpath := begins_encode_iff (show ∀ c ∈ "_ZN".toList, c.toNat < 0x80 by simp) symbol.toList
  rw [bytes_eq_encode, Checked.isRust, IsRust]
  by_cases hr : "_R".toList <+: symbol.toList
  · rw [if_pos (hrust.mpr hr)]
    exact ⟨true, rfl, iff_of_true rfl (.inl hr)⟩
  · rw [if_neg fun h => hr (hrust.mp h), or_iff_right hr]
    by_cases hz : "_ZN".toList <+: symbol.toList
    · rw [if_pos (hpath.mpr hz), endsWithHash_encode hz]
      exact ⟨_, rfl, endsWithHash_iff_hasHash hz⟩
    · rw [if_neg fun h => hz (hpath.mp h)]
      exact ⟨false, rfl, iff_of_false Bool.false_ne_true fun h => hz h.isPrefix⟩

/-- A symbol is looked at in bytes without a stop, and the result is that of its characters. -/
theorem checked_flavor_eq (symbol : String) :
    Checked.flavor (bytes symbol) = some (ofSymbol symbol) := by
  obtain ⟨found, hfound, hrust⟩ := checked_isRust_eq symbol
  have hitanium := begins_encode_iff (show ∀ c ∈ "_Z".toList, c.toNat < 0x80 by simp) symbol.toList
  have hmicrosoft := begins_encode_iff (show ∀ c ∈ "?".toList, c.toNat < 0x80 by simp) symbol.toList
  rw [ofSymbol_eq, Checked.flavor, hfound, bytes_eq_encode]
  simp only [Option.bind_eq_bind, Option.bind_some, hrust, hitanium, hmicrosoft]
  split_ifs <;> rfl

/-- What a symbol is told apart by, in characters and in bytes, and what is shown of it then. -/
structure TellsApart (symbol : String) (flavor : Flavor) : Prop where
  /-- The bytes of the symbol are not looked at outside of it, nor is it cut inside of a character,
  and they tell the same as its characters. -/
  checked : Checked.flavor (bytes symbol) = some flavor
  rust_iff : flavor = .rust ↔ IsRust symbol
  itanium_iff : flavor = .itanium ↔ ¬ IsRust symbol ∧ "_Z".toList <+: symbol.toList
  microsoft_iff : flavor = .microsoft ↔
    ¬ IsRust symbol ∧ ¬ "_Z".toList <+: symbol.toList ∧ "?".toList <+: symbol.toList
  unknown_iff : flavor = .unknown ↔
    ¬ IsRust symbol ∧ ¬ "_Z".toList <+: symbol.toList ∧ ¬ "?".toList <+: symbol.toList
  /-- A symbol is shown as the demangler of its kind reads it. -/
  read : ∀ style text, flavor.demangle? style symbol = some text →
    demangleOrKeep style symbol = text
  /-- A symbol that this one refuses is shown as it is. -/
  refused : ∀ style, flavor.demangle? style symbol = none → demangleOrKeep style symbol = symbol
  /-- So is a symbol that begins in none of these ways. -/
  plain : ∀ style, ¬ "_R".toList <+: symbol.toList → ¬ "_Z".toList <+: symbol.toList →
    ¬ "?".toList <+: symbol.toList → demangleOrKeep style symbol = symbol

/-- Every symbol is told apart by how it begins and ends, and kept if it cannot be read. -/
theorem ofSymbol_tellsApart (symbol : String) : TellsApart symbol (ofSymbol symbol) := by
  have heq := ofSymbol_eq symbol
  have hrefused : ∀ style, (ofSymbol symbol).demangle? style symbol = none →
      demangleOrKeep style symbol = symbol := fun style h => by
    rw [demangleOrKeep_eq, h, Option.getD_none]
  refine ⟨checked_flavor_eq symbol, ?rust, ?itanium, ?microsoft, ?unknown, ?read, hrefused, ?plain⟩
  case rust | itanium | microsoft | unknown =>
    rw [heq]
    split_ifs <;> simp_all
  case read =>
    intro style text h
    rw [demangleOrKeep_eq, h, Option.getD_some]
  case plain =>
    intro style hrust hitanium hmicrosoft
    have hno : ¬ IsRust symbol := by
      rintro (h | h)
      · exact hrust h
      · exact hitanium (List.IsPrefix.trans ⟨['N'], by simp⟩ h.isPrefix)
    apply hrefused
    rw [heq, if_neg hno, if_neg hitanium, if_neg hmicrosoft]
    rfl

/-- The hash may follow the beginning of the path at once, but not overlap it. -/
example : ofSymbol "_ZN17h0123456789abcdefE" = .rust ∧
    ofSymbol "_Z17h0123456789abcdefE" = .itanium := by
  decide

end Flavor

end Demangle

end Postmortem
