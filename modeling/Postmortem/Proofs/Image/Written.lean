import Postmortem.Proofs.Image.Checks

/-!
# Bytes that were written

Tables of an image are written as runs of fields: numbers with their least significant byte first,
names in eight bytes that are filled up with zeros, and texts with a zero byte after each. A buffer
that holds such a run anywhere reads every field of it back.
-/
namespace Postmortem

/-- The UTF-8 bytes of a text. -/
def Text.bytes (s : String) : List UInt8 := s.toByteArray.data.toList

theorem Text.toByteArray_bytes (s : String) : (bytes s).toByteArray = s.toByteArray := by
  apply ByteArray.ext
  rw [List.data_toByteArray, bytes, Array.toArray_toList]

theorem Text.fromUTF8?_bytes (s : String) : String.fromUTF8? (bytes s).toByteArray = some s := by
  rw [toByteArray_bytes, String.fromUTF8?, dif_pos s.isValidUTF8]
  rfl

namespace Bytes

/-- The `n` bytes of a number, least significant byte first. -/
def littleEndian : Nat → Nat → List UInt8
  | 0, _ => []
  | n + 1, v => .ofNat v :: littleEndian n (v / 256)

@[simp] theorem length_littleEndian (n v : Nat) : (littleEndian n v).length = n := by
  induction n generalizing v with
  | zero => rfl
  | succ n ih => rw [littleEndian, List.length_cons, ih]

/-- Whether `part` is what a buffer has from `offset` on. -/
def HoldsAt (b : Bytes) (offset : Nat) (part : List UInt8) : Prop :=
  ∃ before after : List UInt8, b.data.toList = before ++ part ++ after ∧ before.length = offset

theorem getElem?_eq_toList (b : Bytes) (i : Nat) : b[i]? = b.data.toList[i]? := by
  simp only [getElem?_def, Array.length_toList]
  rfl

theorem size_eq_length (b : Bytes) : b.size = b.data.toList.length := rfl

theorem holdsAt_toByteArray (part : List UInt8) : HoldsAt part.toByteArray 0 part :=
  ⟨[], [], by simp, rfl⟩

namespace HoldsAt

variable {b : Bytes} {offset : Nat} {part first rest : List UInt8}

theorem le_size (h : b.HoldsAt offset part) : offset + part.length ≤ b.size := by
  obtain ⟨before, after, hb, rfl⟩ := h
  rw [size_eq_length, hb, List.length_append, List.length_append]
  omega

theorem getElem? (h : b.HoldsAt offset part) {i : Nat} (hi : i < part.length) :
    b[offset + i]? = part[i]? := by
  obtain ⟨before, after, hb, rfl⟩ := h
  rw [getElem?_eq_toList, hb, List.append_assoc, List.getElem?_append_right (by omega),
    Nat.add_sub_cancel_left, List.getElem?_append_left hi]

theorem extract (h : b.HoldsAt offset part) :
    b.extract offset (offset + part.length) = part.toByteArray := by
  obtain ⟨before, after, hb, rfl⟩ := h
  apply ByteArray.ext
  rw [ByteArray.data_extract, List.data_toByteArray, ← Array.toList_inj, Array.toList_extract, hb,
    List.extract_eq_take_drop, List.append_assoc, List.drop_left, Nat.add_sub_cancel_left,
    List.take_left]

theorem slice? (h : b.HoldsAt offset part) :
    b.slice? offset part.length = some part.toByteArray := by
  rw [b.slice?_eq_some _ _ h.le_size, h.extract]

theorem left (h : b.HoldsAt offset (first ++ rest)) : b.HoldsAt offset first := by
  obtain ⟨before, after, hb, hlength⟩ := h
  exact ⟨before, rest ++ after, by simpa only [List.append_assoc] using hb, hlength⟩

theorem right (h : b.HoldsAt offset (first ++ rest)) : b.HoldsAt (offset + first.length) rest := by
  obtain ⟨before, after, hb, rfl⟩ := h
  exact ⟨before ++ first, after, by simpa only [List.append_assoc] using hb, List.length_append⟩

theorem split (h : b.HoldsAt offset (first ++ rest)) {n : Nat} (hn : first.length = n) :
    b.HoldsAt offset first ∧ b.HoldsAt (offset + n) rest :=
  ⟨h.left, hn ▸ h.right⟩

theorem number? {n v : Nat} (h : b.HoldsAt offset (littleEndian n v)) :
    b.number? offset n = some (v % 256 ^ n) := by
  induction n generalizing offset v with
  | zero => simp [Bytes.number?, Nat.mod_one]
  | succ n ih =>
    rw [littleEndian, ← List.singleton_append] at h
    have hlow : b[offset]? = some (.ofNat v) := h.left.getElem? (i := 0) (by simp)
    have hhigh := ih h.right
    simp only [Bytes.number?, hlow, List.length_singleton] at hhigh ⊢
    simp only [hhigh, Option.bind_eq_bind, Option.bind_some, UInt8.toNat_ofNat']
    rw [show 256 ^ (n + 1) = 256 * 256 ^ n from Nat.pow_succ', Nat.mod_mul]

theorem u8? {v : UInt8} (h : b.HoldsAt offset [v]) : b.u8? offset = some v :=
  h.getElem? (i := 0) (by simp)

theorem u16? {v : UInt16} (h : b.HoldsAt offset (littleEndian 2 v.toNat)) :
    b.u16? offset = some v := by
  have hlt : v.toNat < 256 ^ 2 := v.toNat_lt
  rw [Bytes.u16?, h.number?, Nat.mod_eq_of_lt hlt, Option.map_some, UInt16.ofNat_toNat]

theorem i16? {v : Int16} (h : b.HoldsAt offset (littleEndian 2 v.toUInt16.toNat)) :
    b.i16? offset = some v := by
  rw [Bytes.i16?, h.u16?, Option.map_some]
  rfl

theorem u32? {v : UInt32} (h : b.HoldsAt offset (littleEndian 4 v.toNat)) :
    b.u32? offset = some v := by
  have hlt : v.toNat < 256 ^ 4 := v.toNat_lt
  rw [Bytes.u32?, h.number?, Nat.mod_eq_of_lt hlt, Option.map_some, UInt32.ofNat_toNat]

end HoldsAt

/-- Where the first zero byte of a range is, when the range has one or ends there. -/
theorem zeroIndex_eq {b : Bytes} {start stop k : Nat} (hstart : start ≤ k) (hstop : k ≤ stop)
    (hbefore : ∀ i, start ≤ i → i < k → b[i]? ≠ some 0) (hk : k = stop ∨ b[k]? = some 0) :
    b.zeroIndex start stop = k := by
  induction start using zeroIndex.induct b stop with
  | case1 start hlt hzero =>
    rw [zeroIndex, if_pos hlt, if_pos hzero]
    by_contra hne
    exact hbefore start (Nat.le_refl _) (by omega) hzero
  | case2 start hlt hzero ih =>
    rw [zeroIndex, if_pos hlt, if_neg hzero]
    have hne : start ≠ k := by
      rintro rfl
      exact hk.elim (by omega) hzero
    exact ih (by omega) fun i hi => hbefore i (by omega)
  | case3 start hge =>
    rw [zeroIndex, if_neg hge]
    omega

/-- What is before the first zero byte of a range, and at it. -/
theorem zeroIndex_spec (b : Bytes) {start stop : Nat} (h : start ≤ stop) :
    start ≤ b.zeroIndex start stop ∧ b.zeroIndex start stop ≤ stop ∧
      (∀ i, start ≤ i → i < b.zeroIndex start stop → b[i]? ≠ some 0) ∧
      (b.zeroIndex start stop = stop ∨ b[b.zeroIndex start stop]? = some 0) := by
  induction start using zeroIndex.induct b stop with
  | case1 start hlt hzero =>
    rw [zeroIndex, if_pos hlt, if_pos hzero]
    exact ⟨Nat.le_refl _, h, fun i hi hilt => absurd hilt (Nat.not_lt.mpr hi), .inr hzero⟩
  | case2 start hlt hzero ih =>
    obtain ⟨hle, hstop, hbefore, hends⟩ := ih hlt
    rw [zeroIndex, if_pos hlt, if_neg hzero]
    refine ⟨Nat.le_of_succ_le hle, hstop, fun i hi hilt => ?_, hends⟩
    obtain rfl | hlater := Nat.eq_or_lt_of_le hi
    · exact hzero
    · exact hbefore i hlater hilt
  | case3 start hge =>
    rw [zeroIndex, if_neg hge]
    exact ⟨h, Nat.le_refl _, fun i hi hilt => absurd (Nat.lt_of_le_of_lt hi hilt) hge, .inl rfl⟩

/-- Whether the text at `offset` is `s`: its bytes are there, and it goes up to the limit, to the
end of the buffer or to a zero byte. -/
structure TextAt (b : Bytes) (offset limit : Nat) (s : String) : Prop where
  holds : b.HoldsAt offset (Text.bytes s)
  zero_not_mem : 0 ∉ Text.bytes s
  length_le : (Text.bytes s).length ≤ limit
  ends : (Text.bytes s).length = limit ∨ offset + (Text.bytes s).length = b.size ∨
    b[offset + (Text.bytes s).length]? = some 0

theorem TextAt.text? {b : Bytes} {offset limit : Nat} {s : String} (h : b.TextAt offset limit s) :
    b.text? offset limit = some s := by
  have hsize := h.holds.le_size
  have hlimit := h.length_le
  have hindex : b.zeroIndex offset (min (offset + limit) b.size) =
      offset + (Text.bytes s).length := by
    refine zeroIndex_eq (by omega) (by omega) (fun i hi hlt hat => h.zero_not_mem ?_) ?_
    · obtain ⟨j, rfl⟩ := Nat.exists_eq_add_of_le hi
      rw [h.holds.getElem? (by omega)] at hat
      exact List.mem_of_getElem? hat
    · obtain hlast | hlast | hzero := h.ends
      · exact .inl (by omega)
      · exact .inl (by omega)
      · exact .inr hzero
  rw [Bytes.text?, if_pos (by omega), hindex, h.holds.extract, Text.fromUTF8?_bytes]

/-- A part of a buffer that is a text is the bytes of that text. -/
theorem holdsAt_of_extract {b : Bytes} {start stop : Nat} {s : String} (hstart : start ≤ stop)
    (hstop : stop ≤ b.size) (h : String.fromUTF8? (b.extract start stop) = some s) :
    b.HoldsAt start (Text.bytes s) ∧ start + (Text.bytes s).length = stop := by
  have hbytes : Text.bytes s = (b.data.toList.take stop).drop start := by
    have hpart : s.toByteArray = b.extract start stop := by
      rw [String.fromUTF8?] at h
      split at h
      · rw [← Option.some.inj h]
        rfl
      · cases h
    rw [Text.bytes, hpart, ByteArray.data_extract, Array.toList_extract, List.extract_eq_take_drop,
      List.drop_take]
  rw [size_eq_length] at hstop
  rw [hbytes]
  refine ⟨⟨b.data.toList.take start, b.data.toList.drop stop, ?_, ?_⟩, ?_⟩
  · conv_lhs => rw [← List.take_append_drop stop b.data.toList,
      ← List.take_append_drop start (b.data.toList.take stop)]
    rw [List.take_take, Nat.min_eq_left hstart]
  · rw [List.length_take]
    omega
  · rw [List.length_drop, List.length_take]
    omega

theorem text?_eq_some_iff {b : Bytes} {offset limit : Nat} {s : String} :
    b.text? offset limit = some s ↔ b.TextAt offset limit s := by
  refine ⟨fun h => ?_, TextAt.text?⟩
  rw [text?] at h
  split at h
  · next hle =>
    obtain ⟨hstart, hstop, hbefore, hends⟩ := b.zeroIndex_spec hle
    obtain ⟨hholds, hlength⟩ := holdsAt_of_extract hstart (by omega) h
    refine ⟨hholds, fun hzero => ?_, by omega, ?_⟩
    · obtain ⟨i, hi, hat⟩ := List.mem_iff_getElem.mp hzero
      refine hbefore (offset + i) (by omega) (by omega) ?_
      rw [hholds.getElem? hi, List.getElem?_eq_getElem hi, hat]
    · rw [hlength]
      obtain hlast | hzero := hends
      · omega
      · exact .inr (.inr hzero)
  · cases h

/-- A text with a zero byte after it is read back, and so is one that ends at the limit. -/
theorem HoldsAt.text? {b : Bytes} {offset limit : Nat} {s : String}
    (h : b.HoldsAt offset (Text.bytes s ++ [0])) (hzero : 0 ∉ Text.bytes s)
    (hlimit : (Text.bytes s).length ≤ limit) : b.text? offset limit = some s :=
  TextAt.text? ⟨h.left, hzero, hlimit, .inr (.inr (h.right.getElem? (i := 0) (by simp)))⟩

end Bytes

/-- A name field of eight bytes: the text, filled up with zeros. -/
def Text.field (s : String) : List UInt8 := bytes s ++ List.replicate (8 - (bytes s).length) 0

theorem Text.length_field {s : String} (h : (bytes s).length ≤ 8) : (field s).length = 8 := by
  rw [field, List.length_append, List.length_replicate, Nat.add_sub_cancel' h]

theorem Text.beforeZero_field {s : String} (h : (bytes s).length ≤ 8) (hzero : 0 ∉ bytes s) :
    Bytes.beforeZero (field s).toByteArray = (bytes s).toByteArray := by
  have hsize : (field s).toByteArray.size = 8 := by
    rw [List.size_toByteArray, length_field h]
  have hheld : Bytes.HoldsAt (field s).toByteArray 0 (bytes s) := (Bytes.holdsAt_toByteArray _).left
  have hpadding := (Bytes.holdsAt_toByteArray (field s)).right
  have hindex : Bytes.zeroIndex (field s).toByteArray 0 (field s).toByteArray.size =
      (bytes s).length := by
    refine Bytes.zeroIndex_eq (Nat.zero_le _) (by omega) (fun i _ hlt hat => hzero ?_) ?_
    · rw [← Nat.zero_add i, hheld.getElem? hlt] at hat
      exact List.mem_of_getElem? hat
    · rw [hsize]
      obtain heq | hlt := Nat.eq_or_lt_of_le h
      · exact .inl heq
      · right
        have hlength : 0 < 8 - (bytes s).length := Nat.sub_pos_of_lt hlt
        have hfirst := hpadding.getElem? (i := 0) (by rwa [List.length_replicate])
        rwa [List.getElem?_replicate, if_pos hlength, Nat.add_zero, Nat.zero_add] at hfirst
  rw [Bytes.beforeZero, hindex]
  simpa using hheld.extract

theorem Text.lossy_field {s : String} (h : (bytes s).length ≤ 8) (hzero : 0 ∉ bytes s) :
    lossy (Bytes.beforeZero (field s).toByteArray) = s := by
  rw [beforeZero_field h hzero, lossy, fromUTF8?_bytes, Option.getD_some]

/-- A string table: a size that counts itself, and texts with a zero byte after each. -/
structure StringTable where
  texts : List UInt8
  fits : 4 + texts.length < 2 ^ 32

namespace StringTable

open Bytes

def bytes (t : StringTable) : List UInt8 := littleEndian 4 (4 + t.texts.length) ++ t.texts

theorem length_bytes (t : StringTable) : t.bytes.length = 4 + t.texts.length := by
  rw [bytes, List.length_append, length_littleEndian]

/-- Whether the table has a text at `place`. -/
def Has (t : StringTable) (s : String) (place : Nat) : Prop :=
  HoldsAt t.bytes.toByteArray place (Text.bytes s ++ [0])

variable {t : StringTable} {s : String} {place : Nat}

theorem Has.lt_size (h : t.Has s place) : place + (Text.bytes s).length < t.bytes.length := by
  have hle := h.le_size
  rw [List.size_toByteArray, List.length_append, List.length_singleton] at hle
  omega

theorem Has.place_lt (h : t.Has s place) : place < 2 ^ 32 := by
  have hlt := h.lt_size
  have hfits := t.fits
  rw [length_bytes] at hlt
  omega

/-- The texts of some names, one after the other. -/
def textsOf (names : List String) : List UInt8 := names.flatMap fun s => Text.bytes s ++ [0]

/-- The string table of some names. A name that occurs twice is in it twice. -/
def ofNames (names : List String) (h : 4 + (textsOf names).length < 2 ^ 32) : StringTable :=
  ⟨textsOf names, h⟩

/-- Where `ofNames` puts the name at position `i`. -/
def placeIn (names : List String) (i : Nat) : Nat := 4 + (textsOf (names.take i)).length

theorem ofNames_has {names : List String} (hfits : 4 + (textsOf names).length < 2 ^ 32) {i : Nat}
    (h : names[i]? = some s) : (ofNames names hfits).Has s (placeIn names i) := by
  obtain ⟨hi, rfl⟩ := List.getElem?_eq_some_iff.mp h
  have hsplit : textsOf names = textsOf (names.take i) ++ (Text.bytes names[i] ++ [0]) ++
      textsOf (names.drop (i + 1)) := by
    conv_lhs => rw [← List.take_append_drop i names, ← List.getElem_cons_drop hi]
    simp only [textsOf, List.flatMap_append, List.flatMap_cons, List.append_assoc]
  refine ⟨littleEndian 4 (4 + (textsOf names).length) ++ textsOf (names.take i),
    textsOf (names.drop (i + 1)), ?_, ?_⟩
  · rw [List.data_toByteArray, bytes, ofNames, List.append_assoc, List.append_assoc,
      ← List.append_assoc (textsOf _), ← hsplit]
  · rw [List.length_append, length_littleEndian, placeIn]

end StringTable

end Postmortem
