import Postmortem.Proofs.Image.Mapping

/-!
# Exports of loaded images

An image that is read out of memory has the headers of its file, and finds every table of its
exports at the address where the file is searched for the bytes of that address. So both give the
same exports, where the bytes that the export directory refers to are bytes of sections.
-/
namespace Postmortem

/-! ## The headers of the copy -/

section Headers

variable {part whole other : Bytes}

/-- What is read of a common beginning, where enough of it is there, is read of both buffers. -/
theorem Cut.transfer {α β γ : Type} {R : α → β → Prop} {S : α → γ → Prop}
    {x : Except ImageError α} {b : β} {z : Except ImageError γ} (hwhole : Cut R x (.ok b))
    (hx : FailsOnly (fun e => ¬ e.IsTruncation) x) (hother : Cut S x z) :
    ∃ a c, R a b ∧ S a c ∧ z = .ok c := by
  obtain ⟨e, rfl, he⟩ | ⟨a, rfl, hab⟩ := hwhole.of_whole_ok
  · exact absurd he (hx e rfl)
  · obtain ⟨c, hc, hac⟩ := hother.of_part_ok
    exact ⟨a, c, hab, hac, hc⟩

theorem le_maxOffset_of_checkTable {table : TableKind} {offset size total : Nat}
    (h : checkTable table offset size total = .ok ()) : offset + size ≤ maxOffset := by
  unfold checkTable at h
  split at h
  · next hfits => exact hfits.2
  · cases h

/-- A section table is not refused as truncated in a beginning that it lies in. -/
theorem SectionHeader.readAll_not_truncated {offset : Nat} {count : UInt16}
    {headers : List SectionHeader} (hread : readAll whole offset count = .ok headers)
    (hsize : offset + count.toNat * size ≤ part.size) :
    FailsOnly (fun e => ¬ e.IsTruncation) (readAll part offset count) := by
  obtain ⟨_, hcheck, _⟩ := ok_of_bind hread
  unfold readAll
  refine .bind (.checkTable _ _ _ _ (le_maxOffset_of_checkTable hcheck) ?_) fun _ _ => ?_
  · intro hshort
    omega
  · exact (readFrom_fields hsize).mono fun _ hfalse => hfalse.elim

theorem OptionalHeader.magic_of_read {offset : Nat} {size : UInt16} {h : OptionalHeader}
    (hread : read whole offset size = .ok h) :
    whole.u16? offset = some h.format.magic ∧ h.format.fixedSize ≤ size.toNat := by
  unfold read at hread
  dsimp only at hread
  split at hread
  · cases hread
  obtain ⟨magic, hmagic, hread⟩ := ok_of_bind hread
  cases hformat : ImageFormat.ofMagic? magic with
  | none =>
    rw [hformat] at hread
    cases hread
  | some format =>
    rw [hformat] at hread
    dsimp only at hread
    split at hread
    · cases hread
    · next hlarge =>
      obtain ⟨_, _, hread⟩ := ok_of_bind hread
      obtain ⟨_, _, hread⟩ := ok_of_bind hread
      obtain ⟨_, _, hread⟩ := ok_of_bind hread
      obtain ⟨_, _, hread⟩ := ok_of_bind hread
      obtain ⟨_, _, hread⟩ := ok_of_bind hread
      obtain ⟨_, _, hread⟩ := ok_of_bind hread
      obtain ⟨_, _, hread⟩ := ok_of_bind hread
      obtain rfl := Except.ok.inj hread
      refine ⟨?_, Nat.le_of_not_lt hlarge⟩
      unfold requireField at hmagic
      split at hmagic
      · next v hv =>
        rw [hv, ← ImageFormat.eq_magic_of_ofMagic? hformat, Except.ok.inj hmagic]
      · cases hmagic

theorem ImageFormat.magic_inj {f g : ImageFormat} (h : f.magic = g.magic) : f = g := by
  cases f <;> cases g <;> first | rfl | exact absurd h (by decide)

/-- The headers are not refused as truncated in a beginning that they lie in. -/
theorem Headers.read_not_truncated (hpart : part.Begins whole) {dos : DosHeader}
    {headers : Headers} (hdos : DosHeader.read whole = .ok dos)
    (hread : read whole dos.headersAt.toNat = .ok headers)
    (hsize : sectionTableAt dos headers.file ≤ part.size) :
    FailsOnly (fun e => ¬ e.IsTruncation) (read part dos.headersAt.toNat) := by
  obtain ⟨hbegun, hoptional, _⟩ := begun_of_read hdos hread
  obtain ⟨hmagic, hlarge⟩ := OptionalHeader.magic_of_read hoptional
  have hleast := headers.optional.format.le_fixedSize
  have hat : optionalAt = 24 := rfl
  have hsignature : signature.length = 4 := rfl
  have hfilesize : FileHeader.size = 20 := rfl
  rw [sectionTableAt, hat] at hsize
  unfold read
  rw [part.slice?_eq_some _ _ (by omega)]
  refine .guard (by rintro _ ⟨⟩) fun _ => ?_
  have hfields : FailsOnly (fun _ => False)
      (FileHeader.read part (dos.headersAt.toNat + signature.length)) :=
    FileHeader.read_fields (by omega)
  refine .bind (hfields.mono fun _ hfalse => hfalse.elim) fun file hfile => ?_
  -- The file header is the one of the whole buffer, and the optional header has its magic number.
  have hcut := FileHeader.read_cut hpart (dos.headersAt.toNat + signature.length)
  rw [hfile, hbegun.file_eq] at hcut
  obtain ⟨_, heq, rfl⟩ := hcut.of_part_ok
  obtain rfl := Except.ok.inj heq
  refine .bind ((OptionalHeader.read_fields (by omega) (by omega)).mono ?_) fun _ _ => .ok _
  rintro e (⟨m, rfl⟩ | ⟨format, hformat, hsmall, -⟩) he
  · cases he
  · have hsame := (hpart.u16? hformat).symm.trans hmagic
    rw [ImageFormat.magic_inj (Option.some.inj hsame)] at hsmall
    omega

end Headers

namespace DataDirectory

/-- The first directory, as an image looks it up. -/
theorem getD_readAll_zero (b : Bytes) (offset : Nat) (stated : UInt32) :
    (readAll b offset stated)[0]?.getD .empty =
      if stated = 0 then .empty else (read? b offset).getD .empty := by
  unfold readAll
  by_cases hstated : stated = 0
  · rw [if_pos hstated, hstated]
    rfl
  · have hpos : 0 < min stated.toNat count := by
      have hne : stated.toNat ≠ 0 := fun hzero => hstated (UInt32.toNat_inj.mp hzero)
      have hcount : count = 16 := rfl
      omega
    obtain ⟨n, hn⟩ := Nat.exists_eq_add_of_lt hpos
    rw [if_neg hstated, hn, Nat.zero_add, readable]
    cases read? b offset with
    | none => rfl
    | some d => rfl

end DataDirectory

namespace Image

variable {image : Image} {mapped size : Nat} {data : Bytes} {options : ImageOptions}

/-- The entry of the export directory. -/
def exportDirectory (image : Image) : DataDirectory := (image.directory? 0).getD .empty

theorem ReadFrom.exportDirectory_eq (h : image.ReadFrom data options) :
    image.exportDirectory = if image.headers.optional.directoryCount = 0 then .empty
      else (DataDirectory.read? data image.directoriesAt).getD .empty := by
  obtain ⟨_, _, hdirectories⟩ := Headers.begun_of_read h.dos_eq h.headers_eq
  rw [exportDirectory, directory?, hdirectories, DataDirectory.getD_readAll_zero]
  rfl

/-- Headers that begin another buffer as well are read there. -/
theorem ReadFrom.exists_parse_memory (h : image.ReadFrom data options) {part other : Bytes}
    (hwhole : part.Begins data) (hother : part.Begins other)
    (hsize : image.headersEnd ≤ part.size) :
    ∃ loaded, parse other { layout := .memory } none = .ok loaded ∧ loaded.dos = image.dos ∧
      loaded.headers.optional = image.headers.optional := by
  obtain ⟨sectionHeaders, hsections, _⟩ := h.sections_eq
  have htable := Nat.le_trans (Nat.le_max_left _ _) hsize
  have hat : Headers.optionalAt = 24 := rfl
  have hdossize : DosHeader.size = 64 := rfl
  obtain ⟨_, hoptional, _⟩ := Headers.begun_of_read h.dos_eq h.headers_eq
  have hlarge := (OptionalHeader.magic_of_read hoptional).2
  have hleast := image.headers.optional.format.le_fixedSize
  have hdos : DosHeader.read other = .ok image.dos := by
    have hcut := DosHeader.read_cut hwhole
    rw [h.dos_eq] at hcut
    have hfields := DosHeader.read_fields (b := part) (by rw [sectionTableAt] at htable; omega)
    have hnot : FailsOnly (fun e => ¬ e.IsTruncation) (DosHeader.read part) :=
      hfields.mono (by rintro _ rfl ⟨⟩)
    obtain ⟨_, _, rfl, rfl, hdos⟩ := hcut.transfer hnot (DosHeader.read_cut hother)
    exact hdos
  have hcut := Headers.read_cut hwhole image.dos.headersAt.toNat
  rw [h.headers_eq] at hcut
  obtain ⟨headers, later, hheaders, hlater, hread⟩ := hcut.transfer
    (Headers.read_not_truncated hwhole h.dos_eq h.headers_eq (by omega)) (Headers.read_cut hother _)
  have hfile : later.file = image.headers.file := hlater.file_eq.symm.trans hheaders.file_eq
  have hcut := SectionHeader.readAll_cut hwhole (sectionTableAt image.dos image.headers.file)
    image.headers.file.sectionCount
  rw [hsections] at hcut
  obtain ⟨_, _, rfl, rfl, hsections⟩ := hcut.transfer
    (SectionHeader.readAll_not_truncated hsections htable) (SectionHeader.readAll_cut hother _ _)
  rw [sectionTableAt, ← hfile] at hsections
  unfold parse
  simp only [hdos, hread, hsections, bind, Except.bind, pure, Except.pure]
  exact ⟨_, rfl, rfl, hlater.optional_eq.symm.trans hheaders.optional_eq⟩

/-- Where there is a section, its header is behind the entry of the export directory. -/
theorem ReadFrom.headersEnd_le_size (h : image.ReadFrom data options)
    (hsome : image.sectionList ≠ []) : image.headersEnd ≤ data.size := by
  have htable := h.sectionTable_le
  obtain ⟨_, hoptional, _⟩ := Headers.begun_of_read h.dos_eq h.headers_eq
  have hlarge := (OptionalHeader.magic_of_read hoptional).2
  have hcount : 0 < image.headers.file.sectionCount.toNat := by
    rw [← h.isCovered.sections_size, ← Array.length_toList]
    exact List.length_pos_of_ne_nil hsome
  have hsize : SectionHeader.size = 40 := rfl
  refine Nat.max_le.mpr ⟨htable, ?_⟩
  split
  · exact Nat.zero_le _
  · rw [sectionTableAt, hsize] at htable
    rw [directoriesAt]
    omega

/-- The copy is read as an image with the same headers. -/
theorem Loads.exists_loaded (hloads : image.Loads mapped size) (h : image.ReadFrom data options) :
    ∃ loaded, ofMemoryBytes (image.loadedCopy mapped size) = .ok loaded ∧
      loaded.base = image.base ∧ loaded.exportDirectory = image.exportDirectory := by
  obtain rfl := h.data_eq
  have hdata : image.headersEnd ≤ image.data.size := by
    by_cases hnone : image.sectionList = []
    · exact hloads.headersEnd_le_size hnone
    · exact h.headersEnd_le_size hnone
  have hcopied := hloads.copied_headers hdata
  have hprefix := hcopied.extract_eq (Nat.le_refl image.headersEnd)
  rw [Nat.zero_add] at hprefix
  have hsize : (image.data.extract 0 image.headersEnd).size = image.headersEnd := by
    rw [ByteArray.size_extract, Nat.sub_zero, Nat.min_eq_left hdata]
  have hother := Bytes.begins_extract (image.loadedCopy mapped size) image.headersEnd
  rw [← hprefix] at hother
  obtain ⟨loaded, hloaded, hdos, hoptional⟩ := h.exists_parse_memory
    (Bytes.begins_extract image.data image.headersEnd) hother (Nat.le_of_eq hsize.symm)
  refine ⟨loaded, hloaded, by rw [base, base, hoptional], ?_⟩
  have hat : loaded.directoriesAt = image.directoriesAt := by
    rw [directoriesAt, directoriesAt, hdos, hoptional]
  rw [h.exportDirectory_eq, (readFrom_of_parse hloaded).exportDirectory_eq, hoptional, hat]
  by_cases hcount : image.headers.optional.directoryCount = 0
  · rw [if_pos hcount, if_pos hcount]
  · have hend : image.directoriesAt + 8 ≤ image.headersEnd := by
      rw [headersEnd, if_neg hcount]
      exact Nat.le_max_right _ _
    obtain ⟨rva, hrva, hrva'⟩ := hcopied.u32? (k := image.directoriesAt) (by omega)
    obtain ⟨n, hn, hn'⟩ := hcopied.u32? (k := image.directoriesAt + 4) (by omega)
    rw [Nat.zero_add] at hrva hrva' hn hn'
    simp only [DataDirectory.read?, hrva, hrva', hn, hn']

/-! ## The exports -/

/-- Whether the text at an address and the zero byte behind it are bytes of one section. -/
def HoldsText (image : Image) (rva : UInt32) : Prop :=
  ∃ s ∈ image.sectionList, ∃ n < s.header.rawSize.toNat,
    s.Covers rva.toNat (n + 1) ∧ image.data[s.fileAt rva.toNat + n]? = some 0

/-- How many entries of a table of exports are read. -/
def exportLimit (image : Image) (count : UInt32) : Nat :=
  (min count (.ofNat image.options.maxExports)).toNat

/-- Whether the address that the file has at `offset` leads to a text that is held, if it is
followed. -/
def HoldsEntry (image : Image) (offset : Nat) (isFollowed : UInt32 → Bool) : Prop :=
  ∀ rva ∈ image.data.u32? offset, isFollowed rva = true → image.HoldsText rva

/-- Whether a table of addresses is bytes of one section, and so are the texts it leads to. -/
def HoldsTable (image : Image) (rva : UInt32) (count : Nat) (isFollowed : UInt32 → Bool) : Prop :=
  ∃ s ∈ image.sectionList, s.Covers rva.toNat (4 * count) ∧
    ∀ i < count, image.HoldsEntry (s.fileAt rva.toNat + 4 * i) isFollowed

/-- Whether everything that an export directory refers to is bytes of sections: its three tables,
the name of the library, and each name and each text that stands for a function. Tables of names
matter where there are names. -/
structure HoldsTables (image : Image) (d : ExportTable.Directory) : Prop where
  library : d.nameRva ≠ 0 → image.HoldsText d.nameRva
  functions : image.HoldsTable d.functionsRva (image.exportLimit d.functionCount)
    image.exportDirectory.contains
  names : ExportTable.HasNames d (.ofNat image.options.maxExports) →
    image.HoldsTable d.namesRva (image.exportLimit d.nameCount) fun _ => true
  ordinals : ExportTable.HasNames d (.ofNat image.options.maxExports) →
    ∃ s ∈ image.sectionList, s.Covers d.ordinalsRva.toNat (2 * image.exportLimit d.nameCount)

/-- Whether the export directory, if there is one, and everything it refers to is bytes of
sections. -/
def HoldsExports (image : Image) : Prop :=
  image.exportDirectory.isPresent = true →
    ∃ s ∈ image.sectionList,
      s.Covers image.exportDirectory.rva.toNat ExportTable.Directory.size ∧
        ∀ d, ExportTable.Directory.read image.data (s.fileAt image.exportDirectory.rva.toNat) =
            .ok d → image.HoldsTables d

theorem ReadFrom.separate (h : image.ReadFrom data options) (hloads : image.Loads mapped size) :
    image.sections.Separate := by
  obtain ⟨_, _, hsections⟩ := h.sections_eq
  have hpos := hloads.extent_pos
  have hdisjoint := hloads.disjoint
  rw [sectionList, hsections] at hpos hdisjoint
  rw [hsections]
  exact SectionTable.separate_ofList hpos hdisjoint

/-- Where bytes of a section are in the file and in the copy. -/
theorem Loads.offset?_eq (hloads : image.Loads mapped size) (h : image.ReadFrom data options)
    (hlayout : options.layout = .file) {s : Section} {rva : UInt32} {n : Nat}
    (hs : s ∈ image.sectionList) (hcovers : s.Covers rva.toNat n) :
    image.sections.offset? rva = some (s.fileAt rva.toNat) := by
  refine SectionTable.offset?_of_covers ?_ (h.separate hloads) hs hcovers
  obtain ⟨_, _, hsections⟩ := h.sections_eq
  rw [hsections, ← hlayout]
  rfl

theorem Loads.sameText (hloads : image.Loads mapped size) (h : image.ReadFrom data options)
    (hlayout : options.layout = .file) {rva : UInt32} (htext : image.HoldsText rva) :
    ExportTable.SameText image.data image.sections (image.loadedCopy mapped size) rva := by
  obtain ⟨s, hs, n, _, hcovers, hzero⟩ := htext
  refine ⟨s.fileAt rva.toNat, hloads.offset?_eq h hlayout hs hcovers, ?_⟩
  exact ((hloads.copied_section hs hcovers).mono (Nat.le_max_left _ _)).text?_eq hzero

section Tables

variable (hloads : image.Loads mapped size) (h : image.ReadFrom data options)
  (hlayout : options.layout = .file) {loaded : SectionTable} (hloaded : loaded.layout = .memory)
  {d : ExportTable.Directory} (htables : image.HoldsTables d)

include hloads h hlayout hloaded htables

theorem HoldsTables.exists_library :
    ∃ library, ExportTable.ReadsLibrary image.data image.sections d library ∧
      ExportTable.ReadsLibrary (image.loadedCopy mapped size) loaded d library := by
  by_cases hrva : d.nameRva = 0
  · exact ⟨none, .none hrva, .none hrva⟩
  · obtain ⟨offset, hoffset, htext⟩ := hloads.sameText h hlayout (htables.library hrva)
    refine ⟨_, .text hrva hoffset, ?_⟩
    rw [htext]
    exact .text hrva (ExportTable.offset?_memory hloaded _)

theorem HoldsTables.exists_names :
    ∃ names,
      ExportTable.ReadsNames image.data image.sections d (.ofNat image.options.maxExports) names ∧
        ExportTable.ReadsNames (image.loadedCopy mapped size) loaded d
          (.ofNat image.options.maxExports) names := by
  by_cases hnames : ExportTable.HasNames d (.ofNat image.options.maxExports)
  · obtain ⟨s, hs, hcovers, htexts⟩ := htables.names hnames
    obtain ⟨u, hu, hucovers⟩ := htables.ordinals hnames
    refine ⟨_, .tables hnames (hloads.offset?_eq h hlayout hs hcovers)
      (hloads.offset?_eq h hlayout hu hucovers), ?_⟩
    have hsame := ExportTable.readNames_copied hloaded
      ((hloads.copied_section hs hcovers).mono (Nat.le_max_left _ _))
      ((hloads.copied_section hu hucovers).mono (Nat.le_max_left _ _))
      fun m hm rva hrva => hloads.sameText h hlayout (htexts m hm rva hrva rfl)
    rw [exportLimit] at hsame
    rw [hsame]
    exact .tables hnames (ExportTable.offset?_memory hloaded _)
      (ExportTable.offset?_memory hloaded _)
  · exact ⟨[], .none hnames, .none hnames⟩

end Tables

theorem Loads.exports_eq (hloads : image.Loads mapped size) (h : image.ReadFrom data options)
    (hlayout : options.layout = .file) (hexports : image.HoldsExports) {loaded : SectionTable}
    (hloaded : loaded.layout = .memory) :
    ∃ table, image.exports = .ok table ∧
      ExportTable.read (image.loadedCopy mapped size) loaded image.exportDirectory
        image.options.maxExports = .ok table := by
  rw [exports, ← exportDirectory]
  by_cases hpresent : image.exportDirectory.isPresent = true
  · obtain ⟨s, hs, hcovers, htables⟩ := hexports hpresent
    obtain ⟨d, hd, hd'⟩ := ExportTable.Directory.read_copied (hloads.copied_section hs hcovers)
    have htables := htables d hd
    obtain ⟨library, hlibrary, hlibrary'⟩ := htables.exists_library hloads h hlayout hloaded
    obtain ⟨names, hnames, hnames'⟩ := htables.exists_names hloads h hlayout hloaded
    obtain ⟨f, hf, hfcovers, hforwarders⟩ := htables.functions
    refine ⟨_, ExportTable.read_eq_ok hpresent (hloads.offset?_eq h hlayout hs hcovers) hd hlibrary
      (hloads.offset?_eq h hlayout hf hfcovers) hnames, ?_⟩
    rw [ExportTable.read_eq_ok hpresent (ExportTable.offset?_memory hloaded _) hd' hlibrary'
      (ExportTable.offset?_memory hloaded _) hnames']
    have haddresses := ExportTable.readAddresses_copied
      ((hloads.copied_section hf hfcovers).mono (Nat.le_max_left _ _))
    rw [exportLimit] at haddresses
    have hforward : ∀ rva ∈ ExportTable.readAddresses image.data (f.fileAt d.functionsRva.toNat)
          (min d.functionCount (.ofNat image.options.maxExports)).toNat,
        image.exportDirectory.contains rva = true → ExportTable.SameText image.data image.sections
          (image.loadedCopy mapped size) rva := by
      intro rva hrva hcontains
      obtain ⟨k, hk, hat⟩ := ExportTable.mem_readAddresses hrva
      exact hloads.sameText h hlayout (hforwarders k hk rva hat hcontains)
    rw [← haddresses, ExportTable.entriesOf_copied hloaded hforward]
  · exact ⟨.empty, ExportTable.read_of_not_present hpresent,
      ExportTable.read_of_not_present hpresent⟩

/-- An image whose exports are bytes of its sections exports the same when it is loaded, and the
same export is nearest to every address. -/
theorem loadedCopy_exports (hparse : ofFileBytes data = .ok image)
    (hloads : image.Loads mapped size) (hexports : image.HoldsExports) :
    ∃ loaded, ofMemoryBytes (image.loadedCopy mapped size) = .ok loaded ∧
      (∃ table, image.exports = .ok table ∧ loaded.exports = .ok table) ∧
      ∀ address, loaded.nearestExport? address = image.nearestExport? address := by
  have h := readFrom_of_parse hparse
  obtain ⟨loaded, hloaded, hbase, hdirectory⟩ := hloads.exists_loaded h
  have hread := readFrom_of_parse hloaded
  have hlayout : loaded.sections.layout = .memory := by
    obtain ⟨_, _, hsections⟩ := hread.sections_eq
    rw [hsections]
    rfl
  obtain ⟨table, hfile, hmemory⟩ := hloads.exports_eq h rfl hexports hlayout
  have hexports : loaded.exports = .ok table := by
    rw [exports, ← exportDirectory, hdirectory, hread.data_eq, hread.options_eq]
    rwa [h.options_eq] at hmemory
  refine ⟨loaded, hloaded, ⟨table, hfile, hexports⟩, fun address => ?_⟩
  simp only [nearestExport?, nearestIn?, rvaOf?, hbase, hexports, hfile]

end Image

/-! ## Images for which this can be computed -/

namespace Image

section Decidable

variable (image : Image) (mapped size : Nat)

instance : Decidable (image.Loads mapped size) :=
  decidable_of_iff
    (image.headersEnd ≤ mapped ∧ (image.sectionList = [] → image.headersEnd ≤ image.data.size) ∧
      mapped ≤ size ∧
      (∀ s ∈ image.sectionList, mapped ≤ s.header.rva.toNat) ∧
      (∀ s ∈ image.sectionList, 0 < s.header.extent.toNat) ∧
      image.sectionList.Pairwise Section.Disjoint ∧
      ∀ s ∈ image.sectionList, 0 < s.header.rawSize.toNat →
        s.header.rawAt.toNat + s.header.rawSize.toNat ≤ image.data.size ∧
          s.header.rva.toNat + s.header.rawSize.toNat ≤ size)
    ⟨fun ⟨headers, whole, mapped, above, extents, apart, raw⟩ =>
        ⟨headers, whole, mapped, above, extents, apart, raw⟩,
      fun ⟨headers, whole, mapped, above, extents, apart, raw⟩ =>
        ⟨headers, whole, mapped, above, extents, apart, raw⟩⟩

instance (rva : UInt32) : Decidable (image.HoldsText rva) :=
  inferInstanceAs (Decidable (∃ s ∈ image.sectionList, ∃ n < s.header.rawSize.toNat,
    s.Covers rva.toNat (n + 1) ∧ image.data[s.fileAt rva.toNat + n]? = some 0))

instance (offset : Nat) (isFollowed : UInt32 → Bool) :
    Decidable (image.HoldsEntry offset isFollowed) :=
  Option.decidableForallMem _

instance (rva : UInt32) (count : Nat) (isFollowed : UInt32 → Bool) :
    Decidable (image.HoldsTable rva count isFollowed) :=
  inferInstanceAs (Decidable (∃ s ∈ image.sectionList, s.Covers rva.toNat (4 * count) ∧
    ∀ i < count, image.HoldsEntry (s.fileAt rva.toNat + 4 * i) isFollowed))

instance (d : ExportTable.Directory) : Decidable (image.HoldsTables d) :=
  decidable_of_iff
    ((d.nameRva ≠ 0 → image.HoldsText d.nameRva) ∧
      image.HoldsTable d.functionsRva (image.exportLimit d.functionCount)
        image.exportDirectory.contains ∧
      (ExportTable.HasNames d (.ofNat image.options.maxExports) →
        image.HoldsTable d.namesRva (image.exportLimit d.nameCount) fun _ => true) ∧
      (ExportTable.HasNames d (.ofNat image.options.maxExports) → ∃ s ∈ image.sectionList,
        s.Covers d.ordinalsRva.toNat (2 * image.exportLimit d.nameCount)))
    ⟨fun ⟨library, functions, names, ordinals⟩ => ⟨library, functions, names, ordinals⟩,
      fun ⟨library, functions, names, ordinals⟩ => ⟨library, functions, names, ordinals⟩⟩

instance : Decidable image.HoldsExports :=
  inferInstanceAs (Decidable (image.exportDirectory.isPresent = true →
    ∃ s ∈ image.sectionList,
      s.Covers image.exportDirectory.rva.toNat ExportTable.Directory.size ∧
        ∀ d, ExportTable.Directory.read image.data (s.fileAt image.exportDirectory.rva.toNat) =
            .ok d → image.HoldsTables d))

end Decidable

/-- An image whose only section has a library name, a function with a name, and one that stands for
a function of another library. -/
def forwarding : Bytes :=
  ⟨⟨[0x4D, 0x5A] ++ List.replicate 58 0 ++ [0x40, 0, 0, 0] ++ Headers.signature ++
    [0x4C, 0x01, 1, 0] ++ List.replicate 12 0 ++ [104, 0, 0, 0] ++
    [0x0B, 0x01] ++ List.replicate 90 0 ++ [1, 0, 0, 0] ++
    [Bytes.littleEndian 4 0x100, Bytes.littleEndian 4 80].flatten ++
    Text.field ".edata" ++ [69, 0x100, 69, 232, 0, 0, 0, 0].flatMap (Bytes.littleEndian 4) ++
    [0, 0, 0, 0x136, 1, 2, 1, 0x128, 0x130, 0x134].flatMap (Bytes.littleEndian 4) ++
    [0x10, 0x13F, 0x13C].flatMap (Bytes.littleEndian 4) ++ [0, 0] ++
    ["a.dll", "go", "b.run"].flatMap fun s => Text.bytes s ++ [0]⟩⟩

theorem forwarding_exports :
    ∃ image loaded, ofFileBytes forwarding = .ok image ∧ image.exportDirectory.isPresent = true ∧
      ofMemoryBytes (image.loadedCopy 232 325) = .ok loaded ∧
        (∃ table, image.exports = .ok table ∧ loaded.exports = .ok table) ∧
        ∀ address, loaded.nearestExport? address = image.nearestExport? address := by
  have hok : ∃ image, ofFileBytes forwarding = .ok image ∧
      image.exportDirectory.isPresent = true ∧ image.Loads 232 325 ∧ image.HoldsExports := by
    decide +kernel
  obtain ⟨image, hparse, hpresent, hloads, hexports⟩ := hok
  obtain ⟨loaded, hloaded⟩ := loadedCopy_exports hparse hloads hexports
  exact ⟨image, loaded, hparse, hpresent, hloaded⟩

end Image

end Postmortem
