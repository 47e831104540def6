import Postmortem.Proofs.Image.Checks

/-!
# What is known of an image that was read

The checks made while an image is read cover all later reads of it: everything its headers declare
lies in the buffer, every record of its symbol table is there in full, and a walk over the records
comes to each one that does not merely continue another.
-/
namespace Postmortem

variable {data : Bytes}

theorem DosHeader.size_le_of_read {dos : DosHeader} (h : read data = .ok dos) :
    size ≤ data.size := by
  by_contra hshort
  unfold read at h
  rw [if_pos (Nat.lt_of_not_le hshort)] at h
  cases h

theorem Begun.le_size {dos : DosHeader} {file : FileHeader} (h : Begun data dos file) :
    dos.headersAt.toNat + Headers.optionalAt ≤ data.size := by
  by_contra hshort
  have hfile := h.file_eq
  have hcap : cappedEnd (dos.headersAt.toNat + Headers.signature.length) FileHeader.size =
      dos.headersAt.toNat + Headers.optionalAt := by
    rw [cappedEnd, Nat.add_assoc, ← Headers.optionalAt,
      Nat.min_eq_left (headersAt_add_le dos (by decide))]
  unfold FileHeader.read at hfile
  rw [hcap, if_pos (Nat.lt_of_not_le hshort)] at hfile
  cases hfile

theorem SectionHeader.readFrom_of_readAll {offset : Nat} {count : UInt16}
    {headers : List SectionHeader} (h : readAll data offset count = .ok headers) :
    offset + count.toNat * size ≤ data.size ∧ readFrom data offset count.toNat = .ok headers := by
  obtain ⟨_, hcheck, h⟩ := ok_of_bind h
  exact ⟨fits_of_checkTable hcheck, h⟩

namespace SymbolTable

/-- Where a symbol table is that the file header describes. -/
structure LocatedBy (t : SymbolTable) (data : Bytes) (file : FileHeader) (maxSymbols : Nat) :
    Prop where
  hasSymbols : file.HasSymbols
  offset_eq : t.offset = file.symbolsAt.toNat
  count_eq : t.count = min file.symbolCount.toNat maxSymbols
  stringsStart_eq : t.stringsStart = file.stringsAt
  /-- The string table is as long as its first four bytes say, and includes them. -/
  stringsStop_eq : ∃ size, data.u32? file.stringsAt = some size ∧
    t.stringsStop = file.stringsAt + max size.toNat 4
  stringsStop_le : t.stringsStop ≤ data.size

theorem locatedBy_of_locate {file : FileHeader} {maxSymbols : Nat} {table : Option SymbolTable}
    (h : locate data file maxSymbols = .ok table) :
    (¬ file.HasSymbols ∧ table = none) ∨
      ∃ t, table = some t ∧ t.LocatedBy data file maxSymbols := by
  unfold locate at h
  split at h
  · next hnone =>
    exact .inl ⟨not_and_or.mpr (hnone.imp not_not_intro not_not_intro), (Except.ok.inj h).symm⟩
  · next hsymbols =>
    obtain ⟨_, _, h⟩ := ok_of_bind h
    obtain ⟨_, hfield, h⟩ := ok_of_bind h
    obtain ⟨size, hsize⟩ := data.exists_u32? _ (fits_of_checkTable hfield)
    obtain ⟨_, hstrings, h⟩ := ok_of_bind h
    have hstop := fits_of_checkTable hstrings
    obtain rfl := Except.ok.inj h
    refine .inr ⟨_, rfl, not_or.mp hsymbols, rfl, rfl, rfl, ⟨size, hsize, ?_⟩, hstop⟩
    simp only [hsize, Option.getD_some, FileHeader.stringsAt]

end SymbolTable

namespace Image

/-- The readers that an image comes from. -/
structure ReadFrom (image : Image) (data : Bytes) (options : ImageOptions) : Prop where
  data_eq : image.data = data
  options_eq : image.options = options
  dos_eq : DosHeader.read data = .ok image.dos
  headers_eq : Headers.read data image.dos.headersAt.toNat = .ok image.headers
  sections_eq : ∃ headers,
    SectionHeader.readAll data (sectionTableAt image.dos image.headers.file)
        image.headers.file.sectionCount = .ok headers ∧
      image.sections = .ofList (Section.ofHeaders headers (image.symbolTable.map (·.strings data))
        options.layout) options.layout
  locate_eq : options.layout = .file →
    SymbolTable.locate data image.headers.file options.maxSymbols = .ok image.symbolTable
  symbolTable_eq : options.layout = .memory → image.symbolTable = none

theorem readFrom_of_parse {options : ImageOptions} {path : Option String} {image : Image}
    (h : parse data options path = .ok image) : image.ReadFrom data options := by
  obtain ⟨dos, hdos, h⟩ := ok_of_bind h
  obtain ⟨headers, hheaders, h⟩ := ok_of_bind h
  obtain ⟨sectionHeaders, hsections, h⟩ := ok_of_bind h
  dsimp only at h
  split at h
  · next hlayout =>
    obtain ⟨symbolTable, hlocate, h⟩ := ok_of_bind h
    obtain rfl := Except.ok.inj h
    refine ⟨rfl, rfl, hdos, hheaders, ⟨sectionHeaders, hsections, rfl⟩, fun _ => hlocate, ?_⟩
    intro hmemory
    rw [hmemory] at hlayout
    cases hlayout
  · next hlayout =>
    obtain ⟨symbolTable, hnone, h⟩ := ok_of_bind h
    obtain rfl := Except.ok.inj h
    refine ⟨rfl, rfl, hdos, hheaders, ⟨sectionHeaders, hsections, rfl⟩, ?_, ?_⟩
    · intro hfile
      rw [hfile] at hlayout
      cases hlayout
    · exact fun _ => (Except.ok.inj hnone).symm

variable {image : Image} {options : ImageOptions}

theorem ReadFrom.begun (h : image.ReadFrom data options) :
    Begun data image.dos image.headers.file :=
  (Headers.begun_of_read h.dos_eq h.headers_eq).1

theorem ReadFrom.sectionTable_le (h : image.ReadFrom data options) :
    sectionTableAt image.dos image.headers.file +
      image.headers.file.sectionCount.toNat * SectionHeader.size ≤ data.size := by
  obtain ⟨headers, hheaders, _⟩ := h.sections_eq
  exact (SectionHeader.readFrom_of_readAll hheaders).1

theorem ReadFrom.locatedBy (h : image.ReadFrom data options) (hlayout : options.layout = .file)
    (hsymbols : image.headers.file.HasSymbols) :
    ∃ t, image.symbolTable = some t ∧ t.LocatedBy data image.headers.file options.maxSymbols := by
  obtain ⟨hnone, _⟩ | hsome := SymbolTable.locatedBy_of_locate (h.locate_eq hlayout)
  · exact absurd hsymbols hnone
  · exact hsome

/-- Nothing that an image declares ends behind its last byte, once it was read. -/
theorem ReadFrom.declares_le (h : image.ReadFrom data options) {part : Option TableKind}
    {stop : Nat} (hstop : Declares data options.layout part stop) : stop ≤ data.size := by
  have hsame : ∀ {dos file}, Begun data dos file → dos = image.dos ∧ file = image.headers.file := by
    intro dos file hbegun
    obtain rfl := Except.ok.inj (hbegun.dos_eq.symm.trans h.dos_eq)
    exact ⟨rfl, Except.ok.inj (hbegun.file_eq.symm.trans h.begun.file_eq)⟩
  have hfile := h.begun.le_size
  cases hstop with
  | dos => exact DosHeader.size_le_of_read h.dos_eq
  | signature hdos =>
    obtain rfl := Except.ok.inj (hdos.symm.trans h.dos_eq)
    exact Nat.le_trans (Nat.add_le_add_left (by decide) _) hfile
  | file hdos =>
    obtain rfl := Except.ok.inj (hdos.symm.trans h.dos_eq)
    exact hfile
  | optional hbegun =>
    obtain ⟨rfl, rfl⟩ := hsame hbegun
    exact Nat.le_trans (Nat.le_add_right ..) h.sectionTable_le
  | sections hbegun =>
    obtain ⟨rfl, rfl⟩ := hsame hbegun
    exact h.sectionTable_le
  | symbols hbegun hlayout hsymbols =>
    obtain ⟨rfl, rfl⟩ := hsame hbegun
    obtain ⟨t, _, ht⟩ := h.locatedBy hlayout hsymbols
    obtain ⟨size, _, hstop⟩ := ht.stringsStop_eq
    have hle := ht.stringsStop_le
    omega
  | stringsSize hbegun hlayout hsymbols =>
    obtain ⟨rfl, rfl⟩ := hsame hbegun
    obtain ⟨t, _, ht⟩ := h.locatedBy hlayout hsymbols
    obtain ⟨size, _, hstop⟩ := ht.stringsStop_eq
    have hle := ht.stringsStop_le
    omega
  | strings hbegun hlayout hsymbols hsize =>
    obtain ⟨rfl, rfl⟩ := hsame hbegun
    obtain ⟨t, _, ht⟩ := h.locatedBy hlayout hsymbols
    obtain ⟨size, hsize', hstop⟩ := ht.stringsStop_eq
    obtain rfl := Option.some.inj (hsize.symm.trans hsize')
    rw [← hstop]
    exact ht.stringsStop_le

end Image

/-! ## Records of a symbol table -/

namespace SymbolTable

/-- The bytes of a record. -/
def record (t : SymbolTable) (data : Bytes) (i : Nat) : Bytes :=
  data.extract (t.offset + i * recordSize) (t.offset + i * recordSize + recordSize)

/-- The record after a record and those that only continue it. -/
def next (t : SymbolTable) (data : Bytes) (i : Nat) : Nat :=
  i + 1 + (((t.record data i).u8? 17).getD 0).toNat

/-- The records that a walk comes to which skips what only continues a record. -/
inductive Visits (t : SymbolTable) (data : Bytes) (start : Nat) : Nat → Prop
  | start (h : start < t.count) : Visits t data start start
  | next {i : Nat} (h : Visits t data start i) (hnext : t.next data i < t.count) :
    Visits t data start (t.next data i)

/-- The records that do not continue another one. -/
def IsPrimary (t : SymbolTable) (data : Bytes) (i : Nat) : Prop := t.Visits data 0 i

variable {t : SymbolTable}

theorem lt_next (t : SymbolTable) (data : Bytes) (i : Nat) : i < t.next data i := by
  unfold next
  omega

theorem Visits.lt_count {start i : Nat} (h : t.Visits data start i) : i < t.count := by
  cases h with
  | start h => exact h
  | next _ hnext => exact hnext

theorem Visits.le {start i : Nat} (h : t.Visits data start i) : start ≤ i := by
  induction h with
  | start _ => exact Nat.le_refl start
  | next _ _ ih => exact Nat.le_trans ih (Nat.le_of_lt (t.lt_next data _))

/-- A walk comes to its first record, and then goes on as a walk from the next one. -/
theorem visits_iff {start i : Nat} (hstart : start < t.count) :
    t.Visits data start i ↔ i = start ∨ t.Visits data (t.next data start) i := by
  constructor
  · intro h
    induction h with
    | start _ => exact .inl rfl
    | next _ hnext ih =>
      obtain rfl | hlater := ih
      · exact .inr (.start hnext)
      · exact .inr (.next hlater hnext)
  · rintro (rfl | h)
    · exact .start hstart
    · induction h with
      | start hnext => exact .next (.start hstart) hnext
      | next _ hnext ih => exact .next ih hnext

theorem slice?_record {i : Nat} (hfits : t.offset + t.count * recordSize ≤ data.size)
    (hi : i < t.count) :
    data.slice? (t.offset + i * recordSize) recordSize = some (t.record data i) ∧
      (t.record data i).size = recordSize := by
  have hle : (i + 1) * recordSize ≤ t.count * recordSize := Nat.mul_le_mul_right _ hi
  rw [Nat.succ_mul] at hle
  have hstop : t.offset + i * recordSize + recordSize ≤ data.size := by omega
  refine ⟨data.slice?_eq_some _ _ hstop, ?_⟩
  rw [record, ByteArray.size_extract, Nat.min_eq_left hstop, Nat.add_sub_cancel_left]

/-- The records that are read are those that the walk comes to, in the order of the table. -/
theorem exists_walk (hfits : t.offset + t.count * recordSize ≤ data.size) (start : Nat) :
    ∃ walk : List Nat, walk.Pairwise (· < ·) ∧ (∀ i, i ∈ walk ↔ t.Visits data start i) ∧
      t.recordsFrom data start = walk.map (t.record data) := by
  induction start using recordsFrom.induct t data with
  | case1 start hstart hslice =>
    rw [(slice?_record hfits hstart).1] at hslice
    cases hslice
  | case2 start hstart record hslice ih =>
    obtain rfl := Option.some.inj (hslice.symm.trans (slice?_record hfits hstart).1)
    obtain ⟨walk, hsorted, hmem, hrecords⟩ := ih
    refine ⟨start :: walk, List.pairwise_cons.mpr ⟨?_, hsorted⟩, ?_, ?_⟩
    · intro i hi
      exact Nat.lt_of_lt_of_le (t.lt_next data start) ((hmem i).mp hi).le
    · intro i
      rw [List.mem_cons, visits_iff hstart]
      exact or_congr_right (hmem i)
    · rw [recordsFrom, if_pos hstart, hslice]
      exact congrArg (t.record data start :: ·) hrecords
  | case3 start hstart =>
    refine ⟨[], .nil, fun i => ?_, by rw [recordsFrom, if_neg hstart, List.map_nil]⟩
    simp only [List.not_mem_nil, false_iff]
    intro h
    exact hstart (Nat.lt_of_le_of_lt h.le h.lt_count)

/-- Whether every field of a record can be read. -/
structure HasFields (record : Bytes) : Prop where
  name : ∃ field, record.slice? 0 8 = some field ∧ (∃ v, field.u32? 0 = some v) ∧
    ∃ v, field.u32? 4 = some v
  value : ∃ v, record.u32? 8 = some v
  sectionNumber : ∃ v, record.i16? 12 = some v
  type : ∃ v, record.u16? 14 = some v
  storageClass : ∃ v, record.u8? 16 = some v
  auxiliaries : ∃ v, record.u8? 17 = some v

theorem hasFields_of_size {record : Bytes} (h : record.size = recordSize) : HasFields record := by
  have hsize : record.size = 18 := h
  have hname : (record.extract 0 (0 + 8)).size = 8 := by
    rw [ByteArray.size_extract]
    omega
  exact {
    name := ⟨_, record.slice?_eq_some 0 8 (by omega), Bytes.exists_u32? _ _ (by omega),
      Bytes.exists_u32? _ _ (by omega)⟩
    value := record.exists_u32? _ (by omega)
    sectionNumber := record.exists_i16? _ (by omega)
    type := record.exists_u16? _ (by omega)
    storageClass := record.exists_u8? _ (by omega)
    auxiliaries := record.exists_u8? _ (by omega) }

/-- What the checks that were made of a symbol table say about later reads of it. -/
structure IsCovered (t : SymbolTable) (data : Bytes) : Prop where
  record : ∀ i < t.count,
    data.slice? (t.offset + i * recordSize) recordSize = some (t.record data i) ∧
      (t.record data i).size = recordSize ∧ HasFields (t.record data i)
  /-- The functions are those of the primary records, in the order of the table and without any
  that is left out. -/
  functions : ∃ primaries : List Nat,
    primaries.Pairwise (· < ·) ∧ (∀ i, i ∈ primaries ↔ t.IsPrimary data i) ∧
      ∀ sections imageBase, t.functions data sections imageBase =
        primaries.filterMap fun i => function? (t.strings data) sections imageBase (t.record data i)
  strings : t.strings data = data.extract t.stringsStart t.stringsStop
  strings_size : (t.strings data).size = t.stringsStop - t.stringsStart
  four_le_strings : t.stringsStart + 4 ≤ t.stringsStop
  stringsStop_le : t.stringsStop ≤ data.size

theorem LocatedBy.isCovered {file : FileHeader} {maxSymbols : Nat}
    (h : t.LocatedBy data file maxSymbols) : t.IsCovered data := by
  obtain ⟨size, _, hstop⟩ := h.stringsStop_eq
  have hstart := h.stringsStart_eq
  have hle := h.stringsStop_le
  have hfits : t.offset + t.count * recordSize ≤ data.size := by
    have hcount : t.count * recordSize ≤ file.symbolCount.toNat * recordSize :=
      Nat.mul_le_mul_right _ (h.count_eq ▸ Nat.min_le_left ..)
    rw [FileHeader.stringsAt] at hstop
    rw [h.offset_eq]
    omega
  have hstrings : t.strings data = data.extract t.stringsStart t.stringsStop := by
    rw [strings, Bytes.range?, if_pos ⟨by omega, hle⟩, Option.getD_some]
  refine ⟨fun i hi => ?_, ?_, hstrings, ?_, by omega, hle⟩
  · obtain ⟨hslice, hsize⟩ := slice?_record hfits hi
    exact ⟨hslice, hsize, hasFields_of_size hsize⟩
  · obtain ⟨primaries, hsorted, hmem, hrecords⟩ := t.exists_walk hfits 0
    refine ⟨primaries, hsorted, hmem, fun sections imageBase => ?_⟩
    rw [SymbolTable.functions, hrecords, List.filterMap_map]
    rfl
  · rw [hstrings, ByteArray.size_extract, Nat.min_eq_left hle]

end SymbolTable

/-! ## All that was checked -/

theorem SectionTable.size_ofList (sections : List Section) (layout : ImageLayout) :
    (ofList sections layout).sections.size = sections.length := by
  simp only [ofList, List.size_toArray, List.length_mergeSort]

/-- Readers do not fail behind their own check: where the bytes of a structure are there, only a
wrong signature, a wrong magic number or a size that does not go with it can be reported. -/
structure Bytes.FieldsFollowChecks (data : Bytes) : Prop where
  dos : DosHeader.size ≤ data.size → FailsOnly (· = .badDosSignature) (DosHeader.read data)
  file : ∀ offset, offset + FileHeader.size ≤ data.size →
    ∃ file, FileHeader.read data offset = .ok file
  optional : ∀ offset (size : UInt16), 2 ≤ size.toNat → offset + size.toNat ≤ data.size →
    FailsOnly (fun e => (∃ m, e = .badMagic m) ∨ OptionalHeader.TooSmall data offset size e)
      (OptionalHeader.read data offset size)
  sections : ∀ offset (count : UInt16),
    offset + count.toNat * SectionHeader.size ≤ min data.size maxOffset →
      ∃ headers, SectionHeader.readAll data offset count = .ok headers ∧
        headers.length = count.toNat

theorem Bytes.fieldsFollowChecks (data : Bytes) : data.FieldsFollowChecks where
  dos := DosHeader.read_fields
  file _ h := (FileHeader.read_fields h).exists_ok
  optional _ _ := OptionalHeader.read_fields
  sections offset count h := by
    obtain ⟨hfits, hcap⟩ := Nat.le_min.mp h
    obtain ⟨headers, hheaders⟩ := (SectionHeader.readFrom_fields hfits).exists_ok
    refine ⟨headers, ?_, SectionHeader.length_of_readFrom hheaders⟩
    rw [SectionHeader.readAll, checkTable, if_pos ⟨hfits, hcap⟩]
    exact hheaders

namespace Image

/-- What the checks that were made of an image say about later reads of it. -/
structure IsCovered (image : Image) : Prop where
  begun : Begun image.data image.dos image.headers.file
  declares_le : ∀ {part stop}, Declares image.data image.options.layout part stop →
    stop ≤ image.data.size
  sections_size : image.sections.sections.size = image.headers.file.sectionCount.toNat
  /-- An image in a file has the symbol table that its header describes, and no other has one. -/
  symbolTable_cases : ((image.options.layout = .memory ∨ ¬ image.headers.file.HasSymbols) ∧
      image.symbolTable = none) ∨
    ∃ t, image.symbolTable = some t ∧
      t.LocatedBy image.data image.headers.file image.options.maxSymbols ∧ t.IsCovered image.data
  sectionData?_eq_some_iff : ∀ name bytes, image.sectionData? name = some bytes ↔
    ∃ s, image.section? name = some s ∧ s.start ≤ s.stop ∧ s.stop ≤ image.data.size ∧
      bytes = image.data.extract s.start s.stop

theorem sectionData?_eq_some (image : Image) (name : String) (bytes : Bytes) :
    image.sectionData? name = some bytes ↔
      ∃ s, image.section? name = some s ∧ s.start ≤ s.stop ∧ s.stop ≤ image.data.size ∧
        bytes = image.data.extract s.start s.stop := by
  simp only [sectionData?, Option.bind_eq_bind, Option.bind_eq_some_iff, Section.data?,
    Bytes.range?, Option.ite_none_right_eq_some, Option.some.injEq, and_assoc, eq_comm (b := bytes)]

variable {options : ImageOptions} {image : Image}

theorem ReadFrom.isCovered (h : image.ReadFrom data options) : image.IsCovered := by
  obtain ⟨rfl, rfl⟩ : data = image.data ∧ options = image.options :=
    ⟨h.data_eq.symm, h.options_eq.symm⟩
  refine ⟨h.begun, h.declares_le, ?_, ?_, image.sectionData?_eq_some⟩
  · obtain ⟨headers, hheaders, hsections⟩ := h.sections_eq
    rw [hsections, SectionTable.size_ofList, Section.ofHeaders, List.length_mapIdx]
    exact SectionHeader.length_of_readFrom (SectionHeader.readFrom_of_readAll hheaders).2
  · cases hlayout : image.options.layout with
    | memory => exact .inl ⟨.inl rfl, h.symbolTable_eq hlayout⟩
    | file =>
      obtain ⟨hnone, hsymbols⟩ | ⟨t, ht, hlocated⟩ :=
        SymbolTable.locatedBy_of_locate (h.locate_eq hlayout)
      · exact .inl ⟨.inr hnone, hsymbols⟩
      · exact .inr ⟨t, ht, hlocated, hlocated.isCovered⟩

/-- Whatever the bytes are: fields that follow a check are there, only an image that declares more
than there is is refused as truncated, and of an image that was read all later reads are covered. -/
theorem parse_covers (data : Bytes) (options : ImageOptions) (path : Option String) :
    data.FieldsFollowChecks ∧
      (∀ e, parse data options path = .error e → e.IsTruncation →
        Overruns data options.layout e) ∧
      ∀ image, parse data options path = .ok image → image.IsCovered :=
  ⟨data.fieldsFollowChecks, parse_overruns data options path,
    fun _ h => (readFrom_of_parse h).isCovered⟩

end Image

end Postmortem
