import Postmortem.Proofs.Bisect
import Postmortem.Proofs.Image.Copies
import Postmortem.Proofs.Image.SectionOrder

/-!
# Where the bytes of a loaded image come from

A loader puts the headers of a file at the beginning of the image and the bytes of each section at
its address. Where sections do not overlap, the section table finds for an address in the bytes of a
section the place in the file that these bytes come from.
-/
namespace Postmortem

/-! ## Sections -/

namespace Section

/-- Whether the `n` bytes at `rva`, and the first one in any case, are bytes that the file has for
the section. -/
def Covers (s : Section) (rva n : Nat) : Prop :=
  s.header.rva.toNat ≤ rva ∧ rva + max n 1 ≤ s.header.rva.toNat + s.header.rawSize.toNat

/-- Where the file has the byte at `rva`. -/
def fileAt (s : Section) (rva : Nat) : Nat := s.header.rawAt.toNat + (rva - s.header.rva.toNat)

/-- Whether no address is in both sections. -/
def Disjoint (s t : Section) : Prop :=
  s.header.rva.toNat + s.header.extent.toNat ≤ t.header.rva.toNat ∨
    t.header.rva.toNat + t.header.extent.toNat ≤ s.header.rva.toNat

instance (s : Section) (rva n : Nat) : Decidable (s.Covers rva n) :=
  inferInstanceAs (Decidable (_ ∧ _))

instance (s t : Section) : Decidable (s.Disjoint t) := inferInstanceAs (Decidable (_ ∨ _))

instance : Std.Symm Disjoint := ⟨fun _ _ => Or.symm⟩

variable {s t : Section} {rva n : Nat}

theorem rawSize_le_extent (s : Section) : s.header.rawSize.toNat ≤ s.header.extent.toNat := by
  rw [SectionHeader.extent, UInt32.max_def]
  split
  · exact Nat.le_refl _
  · next h =>
    rw [UInt32.le_iff_toNat_le] at h
    omega

/-- Where two sections are disjoint, the one with the smaller address ends before the other. -/
theorem Disjoint.end_le (h : s.Disjoint t) (hpos : 0 < t.header.extent.toNat)
    (hle : s.header.rva ≤ t.header.rva) :
    s.header.rva.toNat + s.header.extent.toNat ≤ t.header.rva.toNat := by
  rw [UInt32.le_iff_toNat_le] at hle
  obtain hbelow | habove := h
  · exact hbelow
  · omega

end Section

namespace SectionHeader

variable {h : SectionHeader} {rva : UInt32}

theorem compareTo_eq_gt (hlt : rva.toNat < h.rva.toNat) : h.compareTo rva = .gt :=
  if_pos (UInt32.lt_iff_toNat_lt.mpr hlt)

theorem toNat_sub_rva (hle : h.rva.toNat ≤ rva.toNat) :
    (rva - h.rva).toNat = rva.toNat - h.rva.toNat :=
  UInt32.toNat_sub_of_le _ _ (UInt32.le_iff_toNat_le.mpr hle)

theorem compareTo_eq_lt (hle : h.rva.toNat + h.extent.toNat ≤ rva.toNat) :
    h.compareTo rva = .lt := by
  have hsub := toNat_sub_rva (Nat.le_of_add_right_le hle)
  unfold compareTo
  rw [if_neg (by rw [UInt32.lt_iff_toNat_lt]; omega),
    if_pos (by rw [UInt32.le_iff_toNat_le, hsub]; omega)]

theorem compareTo_eq_eq (hle : h.rva.toNat ≤ rva.toNat)
    (hlt : rva.toNat < h.rva.toNat + h.extent.toNat) : h.compareTo rva = .eq := by
  have hsub := toNat_sub_rva hle
  unfold compareTo
  rw [if_neg (by rw [UInt32.lt_iff_toNat_lt]; omega),
    if_neg (by rw [UInt32.le_iff_toNat_le, hsub]; omega)]

theorem contains_iff : h.contains rva = true ↔
    h.rva.toNat ≤ rva.toNat ∧ rva.toNat < h.rva.toNat + h.extent.toNat := by
  rw [contains, Bool.and_eq_true, decide_eq_true_eq, decide_eq_true_eq, UInt32.le_iff_toNat_le]
  refine and_congr_right fun hle => ?_
  rw [UInt32.lt_iff_toNat_lt, toNat_sub_rva hle]
  omega

theorem compareTo_eq_eq_iff : h.compareTo rva = .eq ↔ h.contains rva = true := by
  constructor
  · intro heq
    rw [contains_iff]
    refine ⟨Nat.le_of_not_lt fun hlt => ?_, Nat.lt_of_not_le fun hle => ?_⟩
    · rw [compareTo_eq_gt hlt] at heq
      cases heq
    · rw [compareTo_eq_lt hle] at heq
      cases heq
  · intro hcontains
    obtain ⟨hle, hlt⟩ := contains_iff.mp hcontains
    exact compareTo_eq_eq hle hlt

theorem fileOffset?_eq (hle : h.rva.toNat ≤ rva.toNat) :
    h.fileOffset? rva = if rva.toNat - h.rva.toNat < h.rawSize.toNat
      then some (h.rawAt.toNat + (rva.toNat - h.rva.toNat)) else none := by
  simp only [fileOffset?, UInt32.lt_iff_toNat_lt, toNat_sub_rva hle]

end SectionHeader

namespace SectionTable

/-- Whether every section ends before the next one in the table begins. -/
def Separate (t : SectionTable) : Prop :=
  t.sections.toList.Pairwise fun s u =>
    s.header.rva.toNat + s.header.extent.toNat ≤ u.header.rva.toNat

theorem separate_ofList {sections : List Section} {layout : ImageLayout}
    (hpos : ∀ s ∈ (ofList sections layout).sections.toList, 0 < s.header.extent.toNat)
    (hdisjoint : (ofList sections layout).sections.toList.Pairwise Section.Disjoint) :
    (ofList sections layout).Separate := by
  have hsorted : (ofList sections layout).sections.toList.Pairwise fun s u =>
      Section.addressLe s u = true := by
    rw [toList_ofList]
    exact List.pairwise_mergeSort Section.addressLe_trans Section.addressLe_total _
  refine (hdisjoint.and hsorted).imp_of_mem ?_
  rintro s u _ hu ⟨hdisjoint, hle⟩
  exact hdisjoint.end_le (hpos u hu) (of_decide_eq_true hle)

variable {t : SectionTable} {s : Section} {rva : UInt32} {n : Nat}

theorem Separate.end_le (h : t.Separate) {i j : Nat} (hij : i < j) (hj : j < t.sections.size) :
    t.sections[i].header.rva.toNat + t.sections[i].header.extent.toNat ≤
      t.sections[j].header.rva.toNat := by
  have hpair := List.pairwise_iff_getElem.mp h i j (by simpa using Nat.lt_trans hij hj)
    (by simpa using hj) hij
  rwa [Array.getElem_toList, Array.getElem_toList] at hpair

/-- The section that contains an address is the one that the search finds. -/
theorem offset?_of_contains (hlayout : t.layout = .file) (hseparate : t.Separate)
    (hs : s ∈ t.sections.toList) (hcontains : s.header.contains rva = true) :
    t.offset? rva = s.header.fileOffset? rva := by
  obtain ⟨hle, hlt⟩ := SectionHeader.contains_iff.mp hcontains
  obtain ⟨i, hi, hat⟩ := List.mem_iff_getElem.mp hs
  rw [Array.length_toList] at hi
  rw [Array.getElem_toList] at hat
  have hget : t.sections[i]? = some s := by rw [Array.getElem?_eq_getElem hi, hat]
  rw [offset?, hlayout]
  dsimp only
  rw [bisectFind?_eq_some hi, Option.bind_eq_bind, Option.bind_some, hget, Option.bind_eq_bind,
    Option.bind_some]
  · rw [hget]
    exact SectionHeader.compareTo_eq_eq hle hlt
  · intro j hj
    have hbelow := hseparate.end_le hj hi
    rw [hat] at hbelow
    rw [Array.getElem?_eq_getElem (Nat.lt_trans hj hi)]
    exact SectionHeader.compareTo_eq_lt (by omega)
  · intro j hj hij
    have habove := hseparate.end_le hij hj
    rw [hat] at habove
    rw [Array.getElem?_eq_getElem hj]
    exact SectionHeader.compareTo_eq_gt (by omega)

/-- An address in the bytes of a section is found in the file. -/
theorem offset?_of_covers (hlayout : t.layout = .file) (hseparate : t.Separate)
    (hs : s ∈ t.sections.toList) (hcovers : s.Covers rva.toNat n) :
    t.offset? rva = some (s.fileAt rva.toNat) := by
  obtain ⟨hle, hlt⟩ := hcovers
  have hextent := s.rawSize_le_extent
  have hcontains : s.header.contains rva = true :=
    SectionHeader.contains_iff.mpr ⟨hle, by omega⟩
  rw [offset?_of_contains hlayout hseparate hs hcontains, SectionHeader.fileOffset?_eq hle,
    if_pos (by omega), Section.fileAt]

end SectionTable

/-! ## The loaded copy -/

namespace Image

/-- Where the headers end: behind the section table, and behind the entry of the export directory if
the headers state that there is one. -/
def headersEnd (image : Image) : Nat :=
  max (sectionTableAt image.dos image.headers.file +
      image.headers.file.sectionCount.toNat * SectionHeader.size)
    (if image.headers.optional.directoryCount = 0 then 0 else image.directoriesAt + 8)

def sectionList (image : Image) : List Section := image.sections.sections.toList

/-- The byte that a loader puts at `i`: one of the first `mapped` bytes of the file, a byte of a
section, or zero. -/
def loadedByte (image : Image) (mapped i : Nat) : UInt8 :=
  if i < mapped then image.data[i]?.getD 0
  else
    match image.sectionList.find? fun s => s.Covers i 1 with
    | some s => image.data[s.fileAt i]?.getD 0
    | none => 0

/-- The `size` bytes of the image as it is loaded. -/
def loadedCopy (image : Image) (mapped size : Nat) : Bytes :=
  ((List.range size).map (image.loadedByte mapped)).toByteArray

/-- Whether an image can be loaded with its first `mapped` bytes as headers: they are the whole
headers, the sections lie apart and above them, and the bytes of each section are in the file. -/
structure Loads (image : Image) (mapped size : Nat) : Prop where
  headersEnd_le : image.headersEnd ≤ mapped
  /-- Only a file without sections can end before its headers do. -/
  headersEnd_le_size : image.sectionList = [] → image.headersEnd ≤ image.data.size
  mapped_le : mapped ≤ size
  mapped_le_rva : ∀ s ∈ image.sectionList, mapped ≤ s.header.rva.toNat
  extent_pos : ∀ s ∈ image.sectionList, 0 < s.header.extent.toNat
  disjoint : image.sectionList.Pairwise Section.Disjoint
  raw_le : ∀ s ∈ image.sectionList, 0 < s.header.rawSize.toNat →
    s.header.rawAt.toNat + s.header.rawSize.toNat ≤ image.data.size ∧
      s.header.rva.toNat + s.header.rawSize.toNat ≤ size

variable {image : Image} {mapped size : Nat}

theorem getElem?_loadedCopy {i : Nat} (hi : i < size) :
    (image.loadedCopy mapped size)[i]? = some (image.loadedByte mapped i) := by
  rw [Bytes.getElem?_eq_toList, loadedCopy, List.data_toByteArray, List.toList_toArray,
    List.getElem?_map, List.getElem?_range hi, Option.map_some]

theorem Loads.copied_headers (h : image.Loads mapped size)
    (hdata : image.headersEnd ≤ image.data.size) :
    image.data.Copied 0 (image.loadedCopy mapped size) 0 image.headersEnd := by
  intro i hi
  have hmapped := h.headersEnd_le
  have hsize := h.mapped_le
  have hget : image.data[i]? = some image.data[i] := getElem?_pos image.data i (by omega)
  refine ⟨_, by rw [Nat.zero_add, hget], ?_⟩
  rw [Nat.zero_add, getElem?_loadedCopy (by omega), loadedByte, if_pos (by omega), hget,
    Option.getD_some]

/-- No other section has an address that is in the bytes of a section. -/
theorem Loads.find?_covers (h : image.Loads mapped size) {s : Section} (hs : s ∈ image.sectionList)
    {i : Nat} (hi : s.Covers i 1) : image.sectionList.find? (fun t => t.Covers i 1) = some s := by
  cases hfound : image.sectionList.find? fun t => t.Covers i 1 with
  | none => exact absurd (decide_eq_true hi) (List.find?_eq_none.mp hfound s hs)
  | some t =>
    have ht := List.mem_of_find?_eq_some hfound
    have hcovers := List.find?_some hfound
    obtain ⟨hle, hlt⟩ : t.Covers i 1 := of_decide_eq_true hcovers
    obtain ⟨hle', hlt'⟩ := hi
    by_contra hne
    have hdisjoint := h.disjoint.forall ht hs fun heq => hne (by rw [heq])
    have hextent := s.rawSize_le_extent
    have hextent' := t.rawSize_le_extent
    obtain hbelow | habove := hdisjoint <;> omega

theorem Loads.copied_section (h : image.Loads mapped size) {s : Section} {rva n : Nat}
    (hs : s ∈ image.sectionList) (hcovers : s.Covers rva n) :
    image.data.Copied (s.fileAt rva) (image.loadedCopy mapped size) rva (max n 1) := by
  intro k hk
  obtain ⟨hle, hlt⟩ := hcovers
  obtain ⟨hdata, hsize⟩ := h.raw_le s hs (by omega)
  have hbelow := h.mapped_le_rva s hs
  have hplace : s.fileAt (rva + k) = s.fileAt rva + k := by
    simp only [Section.fileAt]
    omega
  have hstop : s.fileAt rva + k < image.data.size := by
    simp only [Section.fileAt]
    omega
  have hget : image.data[s.fileAt rva + k]? = some image.data[s.fileAt rva + k] :=
    getElem?_pos image.data _ hstop
  refine ⟨_, hget, ?_⟩
  have hcovers : s.Covers (rva + k) 1 := ⟨by omega, by omega⟩
  rw [getElem?_loadedCopy (by omega), loadedByte, if_neg (by omega), h.find?_covers hs hcovers]
  simp only [hplace, hget, Option.getD_some]

end Image

end Postmortem
