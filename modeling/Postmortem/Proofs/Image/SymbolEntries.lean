import Postmortem.Proofs.Image.SectionOrder
import Postmortem.Proofs.Image.Written

/-!
# Symbol tables that were written

A symbol is written as one record, and as many further ones as it says. Names of more than eight
bytes are in the string table behind the last record. The functions of a table that was written so
are read back with their exact names and addresses, in the order of the table, and what the further
records hold never comes up.
-/
namespace Postmortem

open Bytes

/-- A symbol as a linker has it before it writes the table, with the contents of the records that
only continue it. `nameAt` is where the string table has the name, if the record has no room for
it. -/
structure SymbolEntry where
  name : String
  nameAt : Nat
  value : UInt32
  sectionNumber : Int16
  type : UInt16
  storageClass : UInt8
  auxiliaries : List (Vector UInt8 SymbolTable.recordSize)
  name_ne : name ≠ ""
  zero_not_mem : 0 ∉ Text.bytes name
  length_le : (Text.bytes name).length ≤ SymbolTable.nameLimit
  auxiliaries_le : auxiliaries.length ≤ 255

namespace SymbolEntry

variable {e : SymbolEntry} {entries : List SymbolEntry} {strings : StringTable} {data : Bytes}

/-- The name as the record has it. -/
def nameField (e : SymbolEntry) : List UInt8 :=
  if (Text.bytes e.name).length ≤ 8 then Text.field e.name
  else littleEndian 4 0 ++ littleEndian 4 e.nameAt

/-- The first record of the symbol as it is written. -/
def record (e : SymbolEntry) : List UInt8 :=
  [e.nameField, littleEndian 4 e.value.toNat, littleEndian 2 e.sectionNumber.toUInt16.toNat,
    littleEndian 2 e.type.toNat, [e.storageClass], [.ofNat e.auxiliaries.length]].flatten

/-- All records of the symbol. -/
def bytes (e : SymbolEntry) : List UInt8 := e.record ++ e.auxiliaries.flatMap Vector.toList

def recordCount (e : SymbolEntry) : Nat := 1 + e.auxiliaries.length

/-- The number of records of some symbols. -/
def recordCounts (entries : List SymbolEntry) : Nat := (entries.map recordCount).sum

/-- Whether the string table has the name at `nameAt`, if the record has no room for it. -/
def IsPlaced (strings : StringTable) (e : SymbolEntry) : Prop :=
  8 < (Text.bytes e.name).length → strings.Has e.name e.nameAt

/-- The function that a symbol is, if it is one of a section that the headers have. -/
def function? (headers : List SectionHeader) (imageBase : UInt64) (e : SymbolEntry) :
    Option FunctionSymbol :=
  if e.type &&& 0x30 = 0x20 ∧ 0 < e.sectionNumber then
    headers[e.sectionNumber.toInt.toNat - 1]?.map fun h =>
      { name := e.name
        address := .ofNat (imageBase.toNat + h.rva.toNat + e.value.toNat)
        sectionNumber := e.sectionNumber
        storageClass := e.storageClass }
  else none

theorem length_nameField (e : SymbolEntry) :
    e.nameField.length = 8 := by
  unfold nameField
  split
  · next hshort => exact Text.length_field hshort
  · simp

theorem length_record (e : SymbolEntry) :
    e.record.length = SymbolTable.recordSize := by
  simp [record, length_nameField, SymbolTable.recordSize]

theorem length_bytes (e : SymbolEntry) :
    e.bytes.length = e.recordCount * SymbolTable.recordSize := by
  have hrest : (e.auxiliaries.flatMap Vector.toList).length =
      e.auxiliaries.length * SymbolTable.recordSize := by
    rw [List.length_flatMap, List.map_congr_left fun v _ => v.length_toList, List.map_const',
      List.sum_replicate_nat]
  rw [bytes, List.length_append, length_record, hrest, recordCount, Nat.add_mul, Nat.one_mul]

theorem recordCounts_cons (e : SymbolEntry) (entries : List SymbolEntry) :
    recordCounts (e :: entries) = e.recordCount + recordCounts entries := by
  rw [recordCounts, List.map_cons, List.sum_cons, recordCounts]

theorem length_flatMap_bytes (entries : List SymbolEntry) :
    (entries.flatMap bytes).length = recordCounts entries * SymbolTable.recordSize := by
  induction entries with
  | nil => rfl
  | cons e rest ih =>
    rw [List.flatMap_cons, List.length_append, ih, length_bytes, recordCounts_cons, Nat.add_mul]

/-! ## One record -/

/-- A name that is in the record does not look like four zero bytes. -/
theorem exists_u32?_field (h : (Text.bytes e.name).length ≤ 8) :
    ∃ v, Bytes.u32? (Text.field e.name).toByteArray 0 = some v ∧ v ≠ 0 := by
  have hpos : 0 < (Text.bytes e.name).length :=
    Nat.pos_of_ne_zero fun hzero => e.name_ne (String.utf8ByteSize_eq_zero_iff.mp hzero)
  have hsize : 4 ≤ (Text.field e.name).toByteArray.size := by
    rw [List.size_toByteArray, Text.length_field h]
    decide
  have hfirst : (Text.field e.name).toByteArray[0]? = some (Text.bytes e.name)[0] := by
    have hheld := (holdsAt_toByteArray (Text.field e.name)).left.getElem? hpos
    rwa [Nat.zero_add, List.getElem?_eq_getElem hpos] at hheld
  have hne : (Text.bytes e.name)[0] ≠ 0 := fun hzero =>
    e.zero_not_mem (hzero ▸ List.getElem_mem hpos)
  obtain ⟨high, hhigh⟩ := exists_number? (Text.field e.name).toByteArray 1 3 hsize
  refine ⟨.ofNat ((Text.bytes e.name)[0].toNat + 256 * high), ?_, ?_⟩
  · rw [Bytes.u32?, number?, hfirst, Option.bind_eq_bind, Option.bind_some]
    rw [hhigh]
    rfl
  · -- The first byte is the rest of the number modulo 256.
    intro hzero
    have hlt := (Text.bytes e.name)[0].toNat_lt
    have hnat := congrArg UInt32.toNat hzero
    rw [UInt32.toNat_ofNat', UInt32.toNat_zero] at hnat
    exact hne (UInt8.toNat_inj.mp (by rw [UInt8.toNat_zero]; omega))

/-- The fields of a record as they are read. -/
structure RecordFields (e : SymbolEntry) (record : Bytes) : Prop where
  name : record.slice? 0 8 = some e.nameField.toByteArray
  value : record.u32? 8 = some e.value
  sectionNumber : record.i16? 12 = some e.sectionNumber
  type : record.u16? 14 = some e.type
  storageClass : record.u8? 16 = some e.storageClass
  auxiliaries : record.u8? 17 = some (.ofNat e.auxiliaries.length)

theorem recordFields_of_holdsAt {record : Bytes} (h : record.HoldsAt 0 e.record) :
    e.RecordFields record := by
  simp only [SymbolEntry.record, List.flatten_cons] at h
  obtain ⟨hname, h⟩ := h.split (length_nameField e)
  obtain ⟨hvalue, h⟩ := h.split (length_littleEndian ..)
  obtain ⟨hsectionNumber, h⟩ := h.split (length_littleEndian ..)
  obtain ⟨htype, h⟩ := h.split (length_littleEndian ..)
  obtain ⟨hstorageClass, h⟩ := h.split List.length_singleton
  have hslice := hname.slice?
  rw [length_nameField] at hslice
  exact ⟨hslice, hvalue.u32?, hsectionNumber.i16?, htype.u16?, hstorageClass.u8?, h.left.u8?⟩

theorem IsPlaced.recordName?_eq (h : e.IsPlaced strings) :
    SymbolTable.recordName? strings.bytes.toByteArray e.record.toByteArray =
      some e.name := by
  have hfields := recordFields_of_holdsAt (holdsAt_toByteArray e.record)
  rw [SymbolTable.recordName?, hfields.name, Option.bind_eq_bind, Option.bind_some, nameField]
  by_cases hshort : (Text.bytes e.name).length ≤ 8
  · obtain ⟨v, hv, hne⟩ := exists_u32?_field hshort
    rw [if_pos hshort, hv, Option.bind_eq_bind, Option.bind_some, if_neg hne,
      Text.lossy_field hshort e.zero_not_mem]
    rfl
  · have hhas := h (Nat.lt_of_not_le hshort)
    have hplace : (UInt32.ofNat e.nameAt).toNat = e.nameAt :=
      UInt32.toNat_ofNat_of_lt hhas.place_lt
    have hfield := holdsAt_toByteArray (littleEndian 4 0 ++ littleEndian 4 e.nameAt)
    obtain ⟨hzero, hat⟩ := hfield.split (length_littleEndian ..)
    rw [← hplace] at hat
    rw [if_neg hshort, HoldsAt.u32? (v := 0) hzero, Option.bind_eq_bind, Option.bind_some,
      if_pos rfl, ← hplace, hat.u32?, Option.bind_some, hplace]
    exact HoldsAt.text? hhas e.zero_not_mem e.length_le

/-- A record describes the function that the symbol is. -/
theorem IsPlaced.function?_eq (h : e.IsPlaced strings) (headers : List SectionHeader)
    (names : Option Bytes) (layout : ImageLayout) (imageBase : UInt64) :
    SymbolTable.function? strings.bytes.toByteArray
        (.ofList (Section.ofHeaders headers names layout) layout) imageBase
        e.record.toByteArray = e.function? headers imageBase := by
  have hfields := recordFields_of_holdsAt (holdsAt_toByteArray e.record)
  simp only [SymbolTable.function?, hfields.type, hfields.sectionNumber, hfields.value,
    hfields.storageClass, h.recordName?_eq, Option.bind_eq_bind, Option.bind_some,
    SectionTable.numbered?_ofList (Section.numbered_ofHeaders _ _ _), Section.getElem?_ofHeaders]
  unfold function?
  by_cases htype : e.type &&& 0x30 = 0x20
  · have hguard : (guard (SymbolTable.isFunctionType e.type = true) : Option Unit) = some () :=
      if_pos (by simpa [SymbolTable.isFunctionType] using htype)
    by_cases hnumber : e.sectionNumber ≤ 0
    · rw [if_pos hnumber, if_neg fun hboth => absurd hboth.2 (Int16.not_lt.mpr hnumber), hguard]
      rfl
    · rw [if_neg hnumber, if_pos ⟨htype, Int16.not_le.mp hnumber⟩, hguard]
      cases headers[e.sectionNumber.toInt.toNat - 1]? with
      | none => rfl
      | some header => simp [Section.ofHeader]
  · have hguard : (guard (SymbolTable.isFunctionType e.type = true) : Option Unit) = none :=
      if_neg (by simpa [SymbolTable.isFunctionType] using htype)
    rw [hguard, Option.bind_none, if_neg fun hboth => htype hboth.1]

/-! ## The table -/

/-- The records that are read are the first ones of the symbols. -/
theorem recordsFrom_eq {t : SymbolTable} {index : Nat}
    (hcount : t.count = index + recordCounts entries)
    (hdata : data.HoldsAt (t.offset + index * SymbolTable.recordSize)
      (entries.flatMap bytes)) :
    t.recordsFrom data index = entries.map fun e => e.record.toByteArray := by
  induction entries generalizing index with
  | nil =>
    rw [SymbolTable.recordsFrom, if_neg (by rw [hcount]; exact Nat.lt_irrefl _), List.map_nil]
  | cons e rest ih =>
    rw [recordCounts_cons, recordCount] at hcount
    rw [List.flatMap_cons] at hdata
    obtain ⟨hfirst, hrest⟩ := hdata.split (length_bytes e)
    have hslice := hfirst.left.slice?
    rw [length_record] at hslice
    have hlast := (recordFields_of_holdsAt (holdsAt_toByteArray e.record)).auxiliaries
    have hlength : (UInt8.ofNat e.auxiliaries.length).toNat = e.auxiliaries.length :=
      UInt8.toNat_ofNat_of_lt (Nat.lt_succ_of_le e.auxiliaries_le)
    have hindex : index < t.count := by omega
    rw [SymbolTable.recordsFrom, if_pos hindex, hslice, List.map_cons]
    simp only [hlast, Option.getD_some, hlength]
    rw [ih]
    · omega
    · convert hrest using 1
      rw [recordCount, Nat.add_assoc index, Nat.add_mul index, Nat.add_assoc]

end SymbolEntry

namespace SymbolTable

open SymbolEntry

variable {entries : List SymbolEntry} {strings : StringTable} {data : Bytes} {file : FileHeader}

/-- Whether a file header describes the table of some symbols, with the string table behind it. -/
structure Written (entries : List SymbolEntry) (strings : StringTable)
    (data : Bytes) (file : FileHeader) : Prop where
  ne_nil : entries ≠ []
  symbolsAt_ne : file.symbolsAt ≠ 0
  count_eq : file.symbolCount.toNat = recordCounts entries
  holds : data.HoldsAt file.symbolsAt.toNat
    (entries.flatMap SymbolEntry.bytes ++ strings.bytes)
  placed : ∀ e ∈ entries, e.IsPlaced strings

theorem Written.symbolCount_ne (h : Written entries strings data file) :
    file.symbolCount ≠ 0 := by
  intro hzero
  have hcount := h.count_eq
  rw [hzero, UInt32.toNat_zero] at hcount
  obtain ⟨e, rest, hentries⟩ := List.exists_cons_of_ne_nil h.ne_nil
  rw [hentries, recordCounts_cons, recordCount] at hcount
  omega

/-- The table that is found: it has all of the records, and the string table behind the last. -/
def writtenTable (entries : List SymbolEntry) (strings : StringTable) (file : FileHeader) :
    SymbolTable where
  offset := file.symbolsAt.toNat
  count := recordCounts entries
  stringsStart := file.stringsAt
  stringsStop := file.stringsAt + strings.bytes.length

theorem Written.holds_split (h : Written entries strings data file) :
    data.HoldsAt file.symbolsAt.toNat (entries.flatMap SymbolEntry.bytes) ∧
      data.HoldsAt file.stringsAt strings.bytes := by
  have hlength := length_flatMap_bytes entries
  rw [← h.count_eq] at hlength
  exact h.holds.split hlength

theorem Written.locate_eq (h : Written entries strings data file) {maxSymbols : Nat}
    (hmax : recordCounts entries ≤ maxSymbols) :
    locate data file maxSymbols = .ok (some (writtenTable entries strings file)) := by
  obtain ⟨_, hstrings⟩ := h.holds_split
  have hend := hstrings.le_size
  have hlength := strings.length_bytes
  have hfits := strings.fits
  have hat := file.symbolsAt.toNat_lt
  have hcount := file.symbolCount.toNat_lt
  have hmaxOffset : maxOffset = 2 ^ 64 - 1 := rfl
  have hrecords : file.symbolsAt.toNat + file.symbolCount.toNat * recordSize = file.stringsAt := rfl
  have hstringsAt : file.stringsAt = file.symbolsAt.toNat + file.symbolCount.toNat * 18 := rfl
  have hsize : data.u32? file.stringsAt = some (.ofNat strings.bytes.length) := by
    apply HoldsAt.u32?
    rw [UInt32.toNat_ofNat_of_lt' (by rwa [hlength]), hlength]
    exact HoldsAt.left hstrings
  have hread : max (UInt32.ofNat strings.bytes.length).toNat 4 = strings.bytes.length := by
    rw [UInt32.toNat_ofNat_of_lt' (by rwa [hlength])]
    omega
  have hcheck (kind : TableKind) (offset size : Nat)
      (hstop : offset + size ≤ file.stringsAt + strings.bytes.length) :
      checkTable kind offset size data.size = .ok () :=
    if_pos ⟨Nat.le_trans hstop hend, by omega⟩
  unfold locate
  rw [if_neg (not_or.mpr ⟨h.symbolsAt_ne, h.symbolCount_ne⟩)]
  simp only [hcheck .symbols file.symbolsAt.toNat (file.symbolCount.toNat * recordSize)
      (hrecords ▸ Nat.le_add_right _ _),
    hrecords, hsize, Option.getD_some, hread, hcheck .strings file.stringsAt 4 (by omega),
    hcheck .strings _ _ (Nat.le_refl _)]
  rw [h.count_eq, Nat.min_eq_left hmax]
  rfl

theorem Written.strings_eq (h : Written entries strings data file) :
    (writtenTable entries strings file).strings data = strings.bytes.toByteArray := by
  have hslice := h.holds_split.2.slice?
  rw [SymbolTable.strings]
  exact congrArg (Option.getD · .empty) hslice

/-- A table that was written is found, and its functions are those symbols that are functions of a
section that there is. -/
theorem functions_written (h : Written entries strings data file) {maxSymbols : Nat}
    (hmax : recordCounts entries ≤ maxSymbols) :
    ∃ t, locate data file maxSymbols = .ok (some t) ∧
      ∀ headers names layout imageBase,
        t.functions data (.ofList (Section.ofHeaders headers names layout) layout) imageBase =
          entries.filterMap (SymbolEntry.function? headers imageBase) := by
  refine ⟨_, h.locate_eq hmax, fun headers names layout imageBase => ?_⟩
  have hrecords : (writtenTable entries strings file).recordsFrom data 0 =
      entries.map fun e => e.record.toByteArray := by
    apply SymbolEntry.recordsFrom_eq (Nat.zero_add _).symm
    rw [Nat.zero_mul]
    exact h.holds_split.1
  rw [functions, hrecords, h.strings_eq, List.filterMap_map]
  apply List.filterMap_congr
  intro e he
  exact (h.placed e he).function?_eq headers names layout imageBase

/-- A function with a long name and a record that continues it, a function with a short name, and a
symbol that is no function. -/
def threeSymbols : List SymbolEntry :=
  [{ name := "resolve_address", nameAt := 4
     value := 0x10, sectionNumber := 1, type := 0x20, storageClass := 2
     auxiliaries := [Vector.replicate _ 0x20]
     name_ne := by decide
     zero_not_mem := by decide +kernel
     length_le := by decide +kernel
     auxiliaries_le := by decide },
    { name := "main", nameAt := 0
      value := 0x40, sectionNumber := 1, type := 0x20, storageClass := 2
      auxiliaries := []
      name_ne := by decide
      zero_not_mem := by decide +kernel
      length_le := by decide +kernel
      auxiliaries_le := by decide },
    { name := "counter", nameAt := 0
      value := 0, sectionNumber := 2, type := 0, storageClass := 3
      auxiliaries := []
      name_ne := by decide
      zero_not_mem := by decide +kernel
      length_le := by decide +kernel
      auxiliaries_le := by decide }]

/-- The header of a file that has them behind its first byte. -/
def threeSymbolsHeader : FileHeader :=
  { machine := .x86_64, sectionCount := 0, timestamp := 0, symbolsAt := 1, symbolCount := 4
    optionalHeaderSize := 0, characteristics := 0 }

def threeSymbolsStrings : StringTable := .ofNames ["resolve_address"] (by decide +kernel)

def threeSymbolsFile : List UInt8 :=
  [0] ++ (threeSymbols.flatMap SymbolEntry.bytes ++ threeSymbolsStrings.bytes)

theorem threeSymbols_functions :
    ∃ t, locate threeSymbolsFile.toByteArray threeSymbolsHeader 4 = .ok (some t) ∧
      ∀ headers names layout imageBase,
        t.functions threeSymbolsFile.toByteArray
            (.ofList (Section.ofHeaders headers names layout) layout) imageBase =
          threeSymbols.filterMap (SymbolEntry.function? headers imageBase) := by
  have hwritten : Written threeSymbols threeSymbolsStrings threeSymbolsFile.toByteArray
      threeSymbolsHeader := by
    refine ⟨List.cons_ne_nil _ _, by decide, by decide, (holdsAt_toByteArray _).right, ?_⟩
    rw [threeSymbols, List.forall_mem_cons, List.forall_mem_cons, List.forall_mem_singleton]
    refine ⟨fun _ => StringTable.ofNames_has (i := 0) _ rfl, ?_, ?_⟩
    · exact fun h => absurd h (by decide +kernel)
    · exact fun h => absurd h (by decide +kernel)
  exact functions_written hwritten (by decide)

end SymbolTable

end Postmortem
