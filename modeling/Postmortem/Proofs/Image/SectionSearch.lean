import Postmortem.Proofs.Image.Mapping

/-!
# Searching the section table

A place in the file is found by halving, with each section placed before, at or behind the address.
Whatever the sections are, a place that is found is one of the bytes of a section with that address.
Where the sections are not empty and lie apart it is the place that a scan of the table finds, and
none is missed.
-/
namespace Postmortem

namespace SectionTable

/-- The place of an address in a file, found section by section: in the first section that contains
the address, unless that is in the part which the file has no bytes for. -/
def scan? (t : SectionTable) (rva : UInt32) : Option Nat := do
  let s ← t.containing? rva
  if s.Covers rva.toNat 1 then some (s.fileAt rva.toNat) else none

variable {t : SectionTable} {s : Section} {rva : UInt32} {offset : Nat}

theorem mem_of_containing? (h : t.containing? rva = some s) :
    s ∈ t.sections.toList ∧ s.header.contains rva = true := by
  rw [containing?, ← Array.find?_toList] at h
  have hcontains := List.find?_some h
  exact ⟨List.mem_of_find?_eq_some h, hcontains⟩

/-- A place in the file that the section gives is that of one of its bytes. -/
theorem fileOffset?_eq_covers (h : s.header.contains rva = true) :
    s.header.fileOffset? rva =
      if s.Covers rva.toNat 1 then some (s.fileAt rva.toNat) else none := by
  obtain ⟨hle, -⟩ := SectionHeader.contains_iff.mp h
  have hcovers : rva.toNat - s.header.rva.toNat < s.header.rawSize.toNat ↔
      s.Covers rva.toNat 1 := by
    simp only [Section.Covers]
    omega
  rw [SectionHeader.fileOffset?_eq hle]
  simp only [hcovers, Section.fileAt]

/-- What the search finds is in a section that contains the address, in order or not. -/
theorem exists_of_offset? (hlayout : t.layout = .file) (h : t.offset? rva = some offset) :
    ∃ s ∈ t.sections.toList, s.header.contains rva = true ∧ s.Covers rva.toNat 1 ∧
      offset = s.fileAt rva.toNat := by
  rw [offset?, hlayout] at h
  obtain ⟨i, hi, h⟩ := Option.bind_eq_some_iff.mp h
  obtain ⟨s, hs, h⟩ := Option.bind_eq_some_iff.mp h
  have heq := eq_of_bisectFind? hi
  rw [hs] at heq
  have hcontains := SectionHeader.compareTo_eq_eq_iff.mp heq
  rw [fileOffset?_eq_covers hcontains] at h
  split at h
  · next hcovers =>
    exact ⟨s, Array.mem_toList_iff.mpr (Array.mem_of_getElem? hs), hcontains, hcovers,
      (Option.some.inj h).symm⟩
  · cases h

/-- An address that no section contains is nowhere in the file. -/
theorem offset?_eq_none (hlayout : t.layout = .file) (h : t.containing? rva = none) :
    t.offset? rva = none := by
  cases hoffset : t.offset? rva with
  | none => rfl
  | some offset =>
    obtain ⟨s, hs, hcontains, -⟩ := exists_of_offset? hlayout hoffset
    exact absurd hcontains (Array.find?_eq_none.mp h s (Array.mem_toList_iff.mp hs))

theorem Separate.offset?_eq_scan? (hlayout : t.layout = .file) (hseparate : t.Separate) :
    t.offset? rva = t.scan? rva := by
  unfold scan?
  cases hfound : t.containing? rva with
  | none => exact offset?_eq_none hlayout hfound
  | some s =>
    obtain ⟨hs, hcontains⟩ := mem_of_containing? hfound
    rw [offset?_of_contains hlayout hseparate hs hcontains, fileOffset?_eq_covers hcontains]
    rfl

/-- An address leads only to the byte of a section that contains it. Where sections are not empty
and lie apart, the search gives what a scan of them gives, whatever the order of their headers. -/
theorem offset?_ofList (sections : List Section) (rva : UInt32) :
    (∀ offset, (ofList sections .file).offset? rva = some offset →
      ∃ s ∈ sections, s.header.contains rva = true ∧ s.Covers rva.toNat 1 ∧
        offset = s.fileAt rva.toNat) ∧
    ((∀ s ∈ sections, 0 < s.header.extent.toNat) → sections.Pairwise Section.Disjoint →
      (ofList sections .file).offset? rva = (ofList sections .file).scan? rva) := by
  have hperm := ofList_perm sections .file
  refine ⟨fun offset hoffset => ?_, fun hpos hdisjoint => ?_⟩
  · obtain ⟨s, hs, hplace⟩ := exists_of_offset? rfl hoffset
    exact ⟨s, hperm.mem_iff.mp hs, hplace⟩
  · refine Separate.offset?_eq_scan? rfl (separate_ofList ?_ ?_)
    · exact fun s hs => hpos s (hperm.mem_iff.mp hs)
    · exact (hperm.pairwise_iff fun h => h.symm).mpr hdisjoint

/-- Sections whose headers are not in the order of their addresses. The last address is in one of
them, which the file has fewer bytes for. -/
def endOfSpace : List Section :=
  Section.ofHeaders [⟨.empty, 0x1000, 0xFFFFF000, 0x200, 0x600, 0⟩, ⟨.empty, 0x800, 0x1000, 0x200,
    0x400, 0⟩] none .file

theorem endOfSpace_offset :
    (ofList endOfSpace .file).offset? 0xFFFFF010 = some 0x610 ∧
      (ofList endOfSpace .file).offset? 0xFFFFFFFF = none ∧
        (ofList endOfSpace .file).offset? 0x1800 = none := by
  have hpos : ∀ s ∈ endOfSpace, 0 < s.header.extent.toNat := by decide +kernel
  have hdisjoint : endOfSpace.Pairwise Section.Disjoint := by decide +kernel
  rw [(offset?_ofList endOfSpace 0xFFFFF010).2 hpos hdisjoint,
    (offset?_ofList endOfSpace 0xFFFFFFFF).2 hpos hdisjoint,
    (offset?_ofList endOfSpace 0x1800).2 hpos hdisjoint]
  exact ⟨by cbv, by cbv, by cbv⟩

end SectionTable

end Postmortem
