import Postmortem.Proofs.Image.NearestExport

/-!
# Exports that stand for others

An address inside the export directory is that of a text, not of code. Whether an export is an
answer depends on that text alone: as long as it can be read no address is answered with the export,
and if it cannot, the export is taken for code.
-/
namespace Postmortem

namespace ExportTable

variable {b : Bytes} {sections : SectionTable} {directory : DataDirectory} {rva : UInt32}
  {t : ExportTable} {e : ExportEntry}

/-- Whether the text at an address can be read. -/
def HasText (b : Bytes) (sections : SectionTable) (rva : UInt32) : Prop :=
  ∃ offset text, sections.offset? rva = some offset ∧ b.text? offset textLimit = some text

theorem forwarder?_eq_none_iff (hcontains : directory.contains rva = true) :
    forwarder? b sections directory rva = none ↔ ¬ HasText b sections rva := by
  rw [← not_iff_not, not_not, ← Ne, Option.ne_none_iff_exists']
  simp only [forwarder?, hcontains, guard_true, Option.pure_def, Option.bind_eq_bind,
    Option.bind_some, Option.bind_eq_some_iff, HasText]
  exact exists_comm

/-- An entry that was read stands for another function exactly if its address says so. -/
theorem forwarder_of_read {maxExports : Nat} (h : read b sections directory maxExports = .ok t)
    (he : e ∈ t.entries) : e.forwarder = forwarder? b sections directory e.rva := by
  by_cases hpresent : directory.isPresent = true
  · obtain ⟨_, _, _, _, -, -, -, -, -, hentries⟩ := exists_of_read hpresent h
    rw [← Array.mem_toList_iff, hentries, List.mem_map] at he
    obtain ⟨slot, -, rfl⟩ := he
    rfl
  · rw [read_of_not_present hpresent] at h
    obtain rfl := Except.ok.inj h
    simp [empty] at he

end ExportTable

namespace Image

variable {image : Image} {table : ExportTable} {rva : UInt32}

/-- An address of the export directory is the start of an answer exactly if an export that has a
name is there and no text can be read there. -/
theorem exists_nearestExport?_inside (hexports : image.exports = .ok table)
    (hinside : image.exportDirectory.rva.toNat ≤ rva.toNat ∧
      rva.toNat < image.exportDirectory.rva.toNat + image.exportDirectory.size.toNat) :
    (∃ address m, image.nearestExport? address = some m ∧
        m.address.toNat = image.base.toNat + rva.toNat) ↔
      image.base.toNat + rva.toNat < UInt64.size ∧
        (∃ e ∈ table.entries, e.rva = rva ∧ e.name.isSome) ∧
          ¬ ExportTable.HasText image.data image.sections rva := by
  rw [← ExportTable.forwarder?_eq_none_iff (image.exportDirectory.contains_iff.mpr hinside)]
  constructor
  · rintro ⟨address, m, hm, haddress⟩
    obtain ⟨_, table', e, -, hexports', he, hshows⟩ := nearestExport?_eq_some_iff.mp hm
    obtain rfl := Except.ok.inj (hexports.symm.trans hexports')
    obtain rfl : e.rva = rva := by
      have hstart := hshows.address_eq
      exact UInt32.toNat_inj.mp (by omega)
    obtain ⟨hname, hforwarder⟩ := ExportEntry.isNamedCode_iff.mp he.isNamedCode
    refine ⟨haddress ▸ m.address.toNat_lt, ⟨e, he.mem, rfl, hname⟩, ?_⟩
    rw [← hforwarder, ExportTable.forwarder_of_read hexports he.mem, exportDirectory]
  · rintro ⟨hfits, ⟨e, he, rfl, hname⟩, htext⟩
    have haddress : image.base.toNat + e.rva.toNat =
        (UInt64.ofNat (image.base.toNat + e.rva.toNat)).toNat :=
      (UInt64.toNat_ofNat_of_lt' hfits).symm
    have hcode : e.isNamedCode = true := by
      refine ExportEntry.isNamedCode_iff.mpr ⟨hname, ?_⟩
      rw [ExportTable.forwarder_of_read hexports he, ← exportDirectory, htext]
    obtain ⟨m, hm, hbefore⟩ :=
      exists_nearestExport? haddress hexports he hcode (UInt32.le_refl _)
    have hsum := displacement_of_nearestExport? hm
    exact ⟨_, m, hm, by omega⟩

/-- An image whose only export stands for a function of another library. -/
def readable : Bytes := ExportTable.oneExport 0x135 (Text.bytes "b.run" ++ [0]) []

/-- No address is answered with the export. -/
theorem readable_unanswered :
    ∃ image table, ofFileBytes readable = .ok image ∧ image.exports = .ok table ∧
      (∃ e ∈ table.entries, e.rva = 0x135 ∧ e.name.isSome) ∧
        ¬ ∃ address m, image.nearestExport? address = some m ∧ m.address.toNat = 0x400135 := by
  have hfile : ∃ image, ofFileBytes readable = .ok image ∧ image.HasOneExport 0x135 ∧
      image.exportDirectory = ⟨0x100, 59⟩ ∧ image.base = 0x400000 ∧
        image.sections.offset? 0x135 = some 285 ∧
          image.data.text? 285 ExportTable.textLimit = some "b.run" := by
    decide +kernel
  obtain ⟨image, hparse, hone, hdirectory, hbase, htext⟩ := hfile
  have hinside : image.exportDirectory.rva.toNat ≤ (0x135 : UInt32).toNat ∧
      (0x135 : UInt32).toNat <
        image.exportDirectory.rva.toNat + image.exportDirectory.size.toNat := by
    rw [hdirectory]
    decide
  have hstart : image.base.toNat + (0x135 : UInt32).toNat = 0x400135 := by
    rw [hbase]
    rfl
  refine ⟨image, _, hparse, hone.exports_eq, ⟨_, Array.mem_singleton_self _, rfl, rfl⟩, ?_⟩
  rw [← hstart, exists_nearestExport?_inside hone.exports_eq hinside]
  rintro ⟨-, -, hnone⟩
  exact hnone ⟨285, "b.run", htext⟩

/-- An image whose only export stands for another function, which the text does not say. -/
def unreadable : Bytes := ExportTable.oneExport 0x135 [0xFF, 0] []

/-- The export is an answer, though its address is one of the directory. -/
theorem unreadable_answered :
    ∃ image table, ofFileBytes unreadable = .ok image ∧ image.exports = .ok table ∧
      image.exportDirectory = ⟨0x100, 55⟩ ∧ image.base = 0x400000 ∧
        image.nearestExport? 0x400135 = some ⟨"go", 0x400135, 0⟩ := by
  have hfile : ∃ image, ofFileBytes unreadable = .ok image ∧ image.HasOneExport 0x135 ∧
      image.exportDirectory = ⟨0x100, 55⟩ ∧ image.base = 0x400000 ∧
        ExportTable.forwarder? image.data image.sections image.exportDirectory 0x135 = none := by
    decide +kernel
  obtain ⟨image, hparse, hone, hdirectory, hbase, hforwarder⟩ := hfile
  have hexports := hone.exports_eq
  rw [hforwarder] at hexports
  have hrva : image.base.toNat + (0x135 : UInt32).toNat = (0x400135 : UInt64).toNat := by
    rw [hbase]
    rfl
  refine ⟨image, _, hparse, hexports, hdirectory, hbase, nearestExport?_eq_some_iff.mpr ?_⟩
  exact ⟨0x135, _, _, hrva, hexports,
    ExportTable.isNearest_of_eq_singleton rfl (by decide) (by decide),
    ⟨rfl, by rw [hbase]; rfl, by decide⟩⟩

end Image

end Postmortem
