import Postmortem.Proofs.Image.NearestExport
import Postmortem.Proofs.Overflow.Headers

/-!
# Exports in checked arithmetic

A section is subtracted from an address only when it starts at or before it, and the tables of the
export directory are at offsets of at most 33 bits. The entries of an export table are in order, so
the nearest one starts at or before the address that it is searched for; its address is no larger
than that one and fits.
-/
namespace Postmortem

namespace Checked

/-! ## Addresses of the loaded image -/

theorem contains_eq (d : DataDirectory) (rva : UInt32) :
    contains d rva = some (d.contains rva) := by
  unfold contains DataDirectory.contains
  by_cases h : d.rva ≤ rva
  · rw [if_pos h, sub32_of_le h]
    simp [h]
  · rw [if_neg h]
    simp [h]

theorem compareTo_eq (h : SectionHeader) (rva : UInt32) :
    compareTo h rva = some (h.compareTo rva) := by
  unfold compareTo SectionHeader.compareTo
  by_cases hlt : rva < h.rva
  · rw [if_pos hlt, if_pos hlt]
    rfl
  · rw [if_neg hlt, if_neg hlt, sub32_of_le (UInt32.not_lt.mp hlt)]
    rfl

theorem le_of_compareTo_eq {h : SectionHeader} {rva : UInt32} (heq : h.compareTo rva = .eq) :
    h.rva ≤ rva :=
  UInt32.le_iff_toNat_le.mpr
    (SectionHeader.contains_iff.mp (SectionHeader.compareTo_eq_eq_iff.mp heq)).1

theorem fileOffset_eq {h : SectionHeader} {rva : UInt32} (hle : h.rva ≤ rva) :
    fileOffset h rva = some (h.fileOffset? rva) := by
  have hrawAt := h.rawAt.toNat_lt
  have hdelta := (rva - h.rva).toNat_lt
  have hplace : offset (h.rawAt.toNat + (rva - h.rva).toNat) = _ := offset_of_lt (by omega)
  unfold fileOffset SectionHeader.fileOffset?
  rw [sub32_of_le hle, Option.bind_eq_bind, Option.bind_some, hplace]
  by_cases hlt : rva - h.rva < h.rawSize
  · simp only [if_pos hlt]
    rfl
  · simp only [if_neg hlt]
    rfl

theorem probe_eq {after : Nat → Option Bool} {after' : Nat → Bool}
    (h : ∀ i, after i = some (after' i)) (base size : Nat) :
    probe after base size = some (bisectProbe after' base size) := by
  induction size using Nat.strongRecOn generalizing base with
  | _ size ih =>
    rw [probe, bisectProbe]
    by_cases hmany : 1 < size
    · simp only [if_pos hmany, h, Option.bind_eq_bind, Option.bind_some]
      exact ih _ (by omega) _
    · rw [if_neg hmany, if_neg hmany]
      rfl

theorem find_eq {compare : Nat → Option Ordering} (compare' : Nat → Ordering)
    (h : ∀ i, compare i = some (compare' i)) (size : Nat) :
    find size compare = some (bisectFind? size compare') := by
  have hafter : ∀ i, (do return (← compare i) == .gt) = some (compare' i == .gt) := by
    intro i
    rw [h]
    rfl
  unfold find bisectFind?
  by_cases hsize : size = 0
  · rw [if_pos hsize, if_pos hsize]
    rfl
  · rw [if_neg hsize, if_neg hsize, probe_eq hafter, Option.bind_eq_bind, Option.bind_some, h]
    rfl

/-- How an address lies to a section of a table; there is nothing beyond the last one. -/
def placeIn (t : SectionTable) (rva : UInt32) (i : Nat) : Ordering :=
  match t.sections[i]? with
  | some s => s.header.compareTo rva
  | none => .gt

theorem offset?_of_file {t : SectionTable} (h : t.layout = .file) (rva : UInt32) :
    t.offset? rva = (bisectFind? t.sections.size (placeIn t rva)).bind fun i =>
      (t.sections[i]?).bind fun s => s.header.fileOffset? rva := by
  rw [SectionTable.offset?, h]
  rfl

theorem rvaToOffset_eq (t : SectionTable) (rva : UInt32) :
    rvaToOffset t rva = some (t.offset? rva) := by
  cases hlayout : t.layout with
  | memory =>
    rw [rvaToOffset, SectionTable.offset?, hlayout]
    rfl
  | file =>
    rw [offset?_of_file hlayout, rvaToOffset, hlayout]
    dsimp only
    rw [find_eq (placeIn t rva), Option.bind_eq_bind, Option.bind_some]
    · cases hfind : bisectFind? t.sections.size (placeIn t rva) with
      | none => rfl
      | some i =>
        have heq := eq_of_bisectFind? hfind
        unfold placeIn at heq
        dsimp only [Option.bind_some]
        cases hs : t.sections[i]? with
        | none => rfl
        | some s =>
          rw [hs] at heq
          exact fileOffset_eq (le_of_compareTo_eq heq)
    · intro i
      unfold placeIn
      cases t.sections[i]? with
      | none => rfl
      | some s => exact compareTo_eq _ _

/-! ## The export directory -/

/-- Offsets that come from addresses have at most 33 bits. -/
theorem offset?_lt {t : SectionTable} {rva : UInt32} {place : Nat}
    (h : t.offset? rva = some place) : place < 2 ^ 33 := by
  have hrva := rva.toNat_lt
  cases hlayout : t.layout with
  | memory =>
    rw [SectionTable.offset?, hlayout] at h
    obtain rfl := Option.some.inj h
    omega
  | file =>
    simp only [offset?_of_file hlayout, Option.bind_eq_some_iff] at h
    obtain ⟨i, _, s, _, hplace⟩ := h
    have hrawAt := s.header.rawAt.toNat_lt
    have hdelta := (rva - s.header.rva).toNat_lt
    unfold SectionHeader.fileOffset? at hplace
    dsimp only at hplace
    split at hplace
    · obtain rfl := Option.some.inj hplace
      omega
    · cases hplace

theorem addressesFrom_eq {b : Bytes} {start i n : Nat} (hstart : start < 2 ^ 33)
    (hn : i + n ≤ 2 ^ 32) :
    addressesFrom b start i n = some (ExportTable.readAddresses b (start + i * 4) n) := by
  induction n generalizing i with
  | zero => rfl
  | succ n ih =>
    have hnext : start + i * 4 + 4 = start + (i + 1) * 4 := by omega
    rw [addressesFrom, ExportTable.readAddresses, offset_of_lt (by omega), Option.bind_eq_bind,
      Option.bind_some, ih (by omega), hnext]
    cases b.u32? (start + i * 4) <;> rfl

theorem namesFrom_eq {b : Bytes} {t : SectionTable} {nameAt ordinalAt i n : Nat}
    (hname : nameAt < 2 ^ 33) (hordinal : ordinalAt < 2 ^ 33) (hn : i + n ≤ 2 ^ 32) :
    namesFrom b t nameAt ordinalAt i n =
      some (ExportTable.readNames b t (nameAt + i * 4) (ordinalAt + i * 2) n) := by
  induction n generalizing i with
  | zero => rfl
  | succ n ih =>
    have hnext : nameAt + i * 4 + 4 = nameAt + (i + 1) * 4 := by omega
    have hnext' : ordinalAt + i * 2 + 2 = ordinalAt + (i + 1) * 2 := by omega
    rw [namesFrom, ExportTable.readNames, offset_of_lt (by omega), offset_of_lt (by omega), hnext,
      hnext', ih (by omega)]
    simp only [Option.bind_eq_bind, Option.bind_some, rvaToOffset_eq]
    cases b.u32? (nameAt + i * 4) with
    | none => rfl
    | some rva =>
      cases b.u16? (ordinalAt + i * 2) with
      | none => rfl
      | some position =>
        dsimp only
        cases (t.offset? rva).bind (b.text? · ExportTable.nameLimit) <;> rfl

theorem forwarder_eq (b : Bytes) (t : SectionTable) (directory : DataDirectory) (rva : UInt32) :
    forwarder b t directory rva = some (ExportTable.forwarder? b t directory rva) := by
  unfold forwarder ExportTable.forwarder?
  rw [contains_eq, rvaToOffset_eq]
  cases directory.contains rva <;> rfl

theorem exportEntries_eq (b : Bytes) (t : SectionTable) (directory : DataDirectory)
    (ordinalBase : UInt32) (names : Std.HashMap Nat String) (addresses : List UInt32) :
    exportEntries b t directory ordinalBase names addresses =
      some (ExportTable.entriesOf b t directory ordinalBase names addresses) := by
  unfold exportEntries ExportTable.entriesOf
  rw [mapM_eq_some (g := fun e =>
    { name := names[e.2]?, ordinal := ordinalBase + UInt32.ofNat e.2, rva := e.1
      forwarder := ExportTable.forwarder? b t directory e.1 })]
  · rw [← List.filterMap_eq_map, List.filterMap_filter]
    refine congrArg (some <| List.filterMap · _) (funext fun e => ?_)
    by_cases h : e.1 = 0 <;> simp [h]
  · intro e _
    simp only [forwarder_eq]
    rfl

theorem translate_agrees (t : SectionTable) (rva : UInt32) :
    Agrees (translate t rva)
      (match t.offset? rva with
      | some place => .ok place
      | none => .error (.unmappedRva rva)) := by
  refine .step (rvaToOffset_eq t rva) ?_
  cases t.offset? rva with
  | none => exact .throw _
  | some place => exact .pure _

theorem exportDirectory_agrees {b : Bytes} {start : Nat} (h : start < 2 ^ 33) :
    Agrees (exportDirectory b start) (ExportTable.Directory.read b start) := by
  refine .guard fun _ => ?_
  refine .field (r := exportField b) (by omega) fun nameRva _ => ?_
  refine .field (by omega) fun ordinalBase _ => ?_
  refine .field (by omega) fun functionCount _ => ?_
  refine .field (by omega) fun nameCount _ => ?_
  refine .field (by omega) fun functionsRva _ => ?_
  refine .field (by omega) fun namesRva _ => ?_
  refine .field (by omega) fun ordinalsRva _ => ?_
  exact .pure _

theorem offset?_of_translate {t : SectionTable} {rva : UInt32} {place : Nat}
    (h : (match t.offset? rva with
      | some place => .ok place
      | none => .error (.unmappedRva rva) : Except ImageError Nat) = .ok place) :
    place < 2 ^ 33 := by
  cases hplace : t.offset? rva with
  | none =>
    rw [hplace] at h
    cases h
  | some found =>
    rw [hplace] at h
    obtain rfl := Except.ok.inj h
    exact offset?_lt hplace

theorem exportTable_agrees (b : Bytes) (t : SectionTable) (directory : DataDirectory)
    (maxExports : Nat) :
    Agrees (exportTable b t directory maxExports)
      (ExportTable.read b t directory maxExports) := by
  refine .ite (fun _ => .pure _) fun _ => ?_
  refine .bind (translate_agrees t _) fun place hplace => ?_
  refine .bind (exportDirectory_agrees (offset?_of_translate hplace)) fun d _ => ?_
  refine .optional (fun _ => translate_agrees t _) fun libraryName => ?_
  refine .bind (translate_agrees t _) fun functionsAt hfunctions => ?_
  have hcount := (min d.functionCount (UInt32.ofNat maxExports)).toNat_lt
  refine .step (addressesFrom_eq (offset?_of_translate hfunctions) (by omega)) ?_
  refine .ite (fun _ => ?_) fun _ => ?_
  · refine .bind (translate_agrees t _) fun nameAt hname => ?_
    refine .bind (translate_agrees t _) fun ordinalAt hordinal => ?_
    have hnames := (min d.nameCount (UInt32.ofNat maxExports)).toNat_lt
    refine .step (namesFrom_eq (offset?_of_translate hname) (offset?_of_translate hordinal)
      (by omega)) ?_
    exact .step (exportEntries_eq ..) (.pure _)
  · exact .bind (.pure _) fun names _ => .step (exportEntries_eq ..) (.pure _)

/-- The exports of an image stay within their widths. -/
theorem exports_agrees (image : Image) : Agrees (exports image) image.exports :=
  exportTable_agrees ..

/-! ## The nearest export -/

/-- The nearest entry of a table in order starts at or before the address. -/
theorem rva_le_of_nearest? {t : ExportTable} (h : t.Ordered) {rva k : UInt32} {e : ExportEntry}
    (he : t.nearest? rva = some (e, k)) : e.rva ≤ rva :=
  (h.nearest?_eq_some_iff.mp he).1.rva_le

theorem nearestEntry_eq {t : ExportTable} (h : t.Ordered) (rva : UInt32) :
    nearestEntry t rva = some (t.nearest? rva) := by
  have hnearest := ExportTable.nearest?_eq_map t rva
  have hstarts : starts t rva = t.startsBy rva := rfl
  rw [nearestEntry, hstarts]
  cases he : ExportTable.lastNamedCode? t.entries
      (partitionPoint t.entries.size (t.startsBy rva)) with
  | none =>
    rw [hnearest, he]
    rfl
  | some e =>
    rw [he, Option.map_some] at hnearest
    rw [hnearest]
    simp only [sub32_of_le (rva_le_of_nearest? h hnearest)]
    rfl

/-- An address that is no more than an RVA behind the base of an image. -/
theorem add64_rva {image : Image} {address : UInt64} {rva r : UInt32}
    (h : image.rvaOf? address = some rva) (hr : r ≤ rva) :
    add64 image.base r.toUInt64 = some (image.base + r.toUInt64) := by
  have hsum := Image.rvaOf?_eq_some_iff.mp h
  have haddress := address.toNat_lt
  have hsize : UInt64.size = 2 ^ 64 := rfl
  rw [UInt32.le_iff_toNat_le] at hr
  refine if_pos ?_
  rw [UInt32.toNat_toUInt64]
  omega

theorem nearestIn_eq {image : Image} {address : UInt64} {rva : UInt32} {t : ExportTable}
    (h : t.Ordered) (hrva : image.rvaOf? address = some rva) :
    nearestIn image rva t = some (image.nearestIn? rva t) := by
  unfold nearestIn Image.nearestIn?
  rw [nearestEntry_eq h]
  cases hnearest : t.nearest? rva with
  | none => rfl
  | some found =>
    obtain ⟨e, k⟩ := found
    simp only [Option.bind_eq_bind, Option.bind_some]
    cases e.name with
    | none => rfl
    | some name =>
      rw [add64_rva hrva (rva_le_of_nearest? h hnearest)]
      rfl

/-- The nearest export is found without leaving a width, whatever the base of the image is. -/
theorem nearestExport_eq (image : Image) (address : UInt64) :
    nearestExport image address = some (image.nearestExport? address) := by
  have hexports : (exports image).run = some image.exports := exports_agrees image
  unfold nearestExport Image.nearestExport?
  rw [hexports]
  cases hrva : image.rvaOf? address with
  | none => rfl
  | some rva =>
    cases htable : image.exports with
    | error e => rfl
    | ok table => exact nearestIn_eq (Image.ordered_of_exports htable) hrva

end Checked

end Postmortem
