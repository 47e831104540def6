import Postmortem.Proofs.Image.SectionOrder
import Postmortem.Proofs.Text.Encoding
import Postmortem.Proofs.Text.Numeral

/-!
# Section tables that were written

A section header holds a name of at most eight bytes in place; of a longer one it has a slash and
the place in the string table, in decimal. Sections that were written so are read back with their
names and all of their fields, whatever the addresses are by which the table then orders them.
-/
namespace Postmortem

open Bytes

/-- What a section header says of a name that the string table has at `place`. -/
def Text.slashed (place : Nat) : String := "/" ++ place.repr

namespace Text

variable {place : Nat}

theorem toList_slashed (place : Nat) : (slashed place).toList = '/' :: Nat.toDigits 10 place := by
  rw [slashed, String.toList_append, Nat.toList_repr]
  rfl

theorem bytes_slashed (place : Nat) :
    bytes (slashed place) = (slashed place).toList.map fun c => UInt8.ofNat c.toNat := by
  apply bytes_of_ascii
  rw [toList_slashed, List.forall_mem_cons]
  refine ⟨by decide, fun c hc => ?_⟩
  have hdigit := Nat.isDigit_of_mem_toDigits (by decide) (by decide) hc
  exact Nat.lt_of_le_of_lt (Char.isDigit_iff_toNat.mp hdigit).2 (by decide)

theorem length_bytes_slashed (h : place < 10 ^ 7) : (bytes (slashed place)).length ≤ 8 := by
  rw [bytes_slashed, List.length_map, toList_slashed, List.length_cons]
  exact Nat.succ_le_succ ((Nat.length_toDigits_le_iff (by decide) (by decide)).mpr h)

theorem zero_not_mem_bytes_slashed (place : Nat) : 0 ∉ bytes (slashed place) := by
  rw [bytes_slashed, toList_slashed, List.map_cons, List.mem_cons, List.mem_map]
  rintro (hslash | ⟨c, hc, hzero⟩)
  · exact absurd hslash (by decide)
  · have hdigit := Nat.isDigit_of_mem_toDigits (by decide) (by decide) hc
    obtain ⟨hlow, hhigh⟩ := Char.isDigit_iff_toNat.mp hdigit
    have hlow : 48 ≤ c.toNat := hlow
    have hhigh : c.toNat ≤ 57 := hhigh
    have hnat : c.toNat % 2 ^ 8 = 0 := by rw [← UInt8.toNat_ofNat', hzero, UInt8.toNat_zero]
    omega

end Text

/-- A section as a linker has it before it writes the header. `nameAt` is where the string table has
the name, if the header has no room for it. A name that is written in place must not look like the
place of a longer one. -/
structure SectionEntry where
  name : String
  nameAt : Nat
  virtualSize : UInt32
  rva : UInt32
  rawSize : UInt32
  rawAt : UInt32
  relocationsAt : UInt32
  lineNumbersAt : UInt32
  relocationCount : UInt16
  lineNumberCount : UInt16
  characteristics : UInt32
  zero_not_mem : 0 ∉ Text.bytes name
  length_le : (Text.bytes name).length ≤ Section.longNameLimit
  not_slashed : (Text.bytes name).length ≤ 8 →
    ∀ rest, name.toList = '/' :: rest → ¬ Text.IsNumber rest

namespace SectionEntry

variable {e : SectionEntry} {entries : List SectionEntry} {strings : StringTable} {data : Bytes}
  {offset : Nat}

/-- What the header says as the name. -/
def fieldText (e : SectionEntry) : String :=
  if (Text.bytes e.name).length ≤ 8 then e.name else Text.slashed (e.nameAt)

/-- The header as it is written. -/
def bytes (e : SectionEntry) : List UInt8 :=
  [Text.field e.fieldText, littleEndian 4 e.virtualSize.toNat, littleEndian 4 e.rva.toNat,
    littleEndian 4 e.rawSize.toNat, littleEndian 4 e.rawAt.toNat,
    littleEndian 4 e.relocationsAt.toNat, littleEndian 4 e.lineNumbersAt.toNat,
    littleEndian 2 e.relocationCount.toNat, littleEndian 2 e.lineNumberCount.toNat,
    littleEndian 4 e.characteristics.toNat].flatten

/-- The header as it is read. -/
def header (e : SectionEntry) : SectionHeader where
  nameField := (Text.field e.fieldText).toByteArray
  virtualSize := e.virtualSize
  rva := e.rva
  rawSize := e.rawSize
  rawAt := e.rawAt
  characteristics := e.characteristics

/-- How many bytes of the file are the section's. -/
def trueSize (e : SectionEntry) : Nat :=
  if e.virtualSize = 0 then e.rawSize.toNat else min e.virtualSize.toNat e.rawSize.toNat

/-- The section of the header at position `index` of the table. -/
def toSection (index : Nat) (e : SectionEntry) : Section where
  name := e.name
  index := index
  header := e.header
  start := e.rawAt.toNat
  stop := e.rawAt.toNat + e.trueSize

/-- Whether the string table has the name at `nameAt`, if the header has no room for it. The place
has to be short enough for the header. -/
def IsPlaced (strings : StringTable) (e : SectionEntry) : Prop :=
  8 < (Text.bytes e.name).length → strings.Has e.name (e.nameAt) ∧ e.nameAt < 10 ^ 7

theorem IsPlaced.fieldText_fits (h : e.IsPlaced strings) :
    (Text.bytes e.fieldText).length ≤ 8 ∧ 0 ∉ Text.bytes e.fieldText := by
  unfold fieldText
  by_cases hshort : (Text.bytes e.name).length ≤ 8
  · rw [if_pos hshort]
    exact ⟨hshort, e.zero_not_mem⟩
  · rw [if_neg hshort]
    exact ⟨Text.length_bytes_slashed (h (Nat.lt_of_not_le hshort)).2,
      Text.zero_not_mem_bytes_slashed _⟩

theorem IsPlaced.length_bytes (h : e.IsPlaced strings) :
    e.bytes.length = SectionHeader.size := by
  simp [bytes, Text.length_field h.fieldText_fits.1, SectionHeader.size]

theorem IsPlaced.read_eq (h : e.IsPlaced strings)
    (hdata : data.HoldsAt offset e.bytes) :
    SectionHeader.read data offset = .ok e.header := by
  have hlength := Text.length_field h.fieldText_fits.1
  simp only [bytes, List.flatten_cons] at hdata
  obtain ⟨hfield, hdata⟩ := hdata.split hlength
  obtain ⟨hvirtualSize, hdata⟩ := hdata.split (length_littleEndian ..)
  obtain ⟨hrva, hdata⟩ := hdata.split (length_littleEndian ..)
  obtain ⟨hrawSize, hdata⟩ := hdata.split (length_littleEndian ..)
  obtain ⟨hrawAt, hdata⟩ := hdata.split (length_littleEndian ..)
  obtain ⟨_, hdata⟩ := hdata.split (length_littleEndian ..)
  obtain ⟨_, hdata⟩ := hdata.split (length_littleEndian ..)
  obtain ⟨_, hdata⟩ := hdata.split (length_littleEndian ..)
  obtain ⟨_, hdata⟩ := hdata.split (length_littleEndian ..)
  have hname := hfield.slice?
  rw [hlength] at hname
  simp only [SectionHeader.read, hname, hvirtualSize.u32?, hrva.u32?, hrawSize.u32?, hrawAt.u32?,
    hdata.left.u32?, requireField]
  rfl

theorem readFrom_eq (h : ∀ e ∈ entries, e.IsPlaced strings)
    (hdata : data.HoldsAt offset (entries.flatMap bytes)) :
    SectionHeader.readFrom data offset entries.length = .ok (entries.map header) := by
  induction entries generalizing offset with
  | nil => rfl
  | cons e rest ih =>
    obtain ⟨he, hrest⟩ := List.forall_mem_cons.mp h
    rw [List.flatMap_cons] at hdata
    obtain ⟨hfirst, hdata⟩ := hdata.split he.length_bytes
    rw [List.length_cons, SectionHeader.readFrom, he.read_eq hfirst, List.map_cons]
    show (SectionHeader.readFrom data (offset + SectionHeader.size) rest.length >>= _) = _
    rw [ih hrest hdata]
    rfl

theorem IsPlaced.shortName_eq (h : e.IsPlaced strings) :
    e.header.shortName = e.fieldText :=
  Text.lossy_field h.fieldText_fits.1 h.fieldText_fits.2

/-- Only a name that is in the string table reads as the place of one. -/
theorem IsPlaced.longNameAt?_eq (h : e.IsPlaced strings) :
    e.header.longNameAt? =
      if (Text.bytes e.name).length ≤ 8 then none else some (e.nameAt) := by
  rw [SectionHeader.longNameAt?, h.shortName_eq, fieldText]
  by_cases hshort : (Text.bytes e.name).length ≤ 8
  · rw [if_pos hshort, if_pos hshort]
    split
    · next rest hslash =>
      rw [Option.eq_none_iff_forall_ne_some]
      intro n hn
      exact e.not_slashed hshort rest hslash (Text.isNumber_of_signedDecimal? hn)
    · rfl
  · rw [if_neg hshort, if_neg hshort, Text.toList_slashed]
    exact Text.signedDecimal?_toDigits _

theorem bounds_header (e : SectionEntry) :
    e.header.bounds .file = (e.rawAt.toNat, e.rawAt.toNat + e.trueSize) := by
  rw [SectionHeader.bounds, trueSize]
  by_cases h : e.virtualSize = 0
  · rw [if_pos h]
    simp [header, h]
  · have hmin : (min e.virtualSize e.rawSize).toNat = min e.virtualSize.toNat e.rawSize.toNat := by
      simp only [UInt32.min_def, UInt32.le_iff_toNat_le]
      split <;> omega
    rw [if_neg h]
    simp [header, h, hmin]

theorem IsPlaced.name_eq (h : e.IsPlaced strings) (layout : ImageLayout) (index : Nat) :
    (Section.ofHeader (some strings.bytes.toByteArray) layout index e.header).name =
      e.name := by
  simp only [Section.ofHeader, h.longNameAt?_eq, h.shortName_eq, fieldText]
  by_cases hshort : (Text.bytes e.name).length ≤ 8
  · rw [if_pos hshort, if_pos hshort]
    rfl
  · obtain ⟨hhas, _⟩ := h (Nat.lt_of_not_le hshort)
    have htext := HoldsAt.text? hhas e.zero_not_mem e.length_le
    simp only [if_neg hshort, Option.bind_eq_bind, Option.bind_some, htext, Option.getD_some]

theorem IsPlaced.ofHeader_eq (h : e.IsPlaced strings) (index : Nat) :
    Section.ofHeader (some strings.bytes.toByteArray) .file index e.header =
      e.toSection index := by
  have hname := h.name_eq .file index
  simp only [Section.ofHeader] at hname ⊢
  rw [hname, bounds_header]
  rfl

theorem ofHeaders_eq (h : ∀ e ∈ entries, e.IsPlaced strings) :
    Section.ofHeaders (entries.map header) (some strings.bytes.toByteArray) .file =
      entries.mapIdx toSection := by
  apply List.ext_getElem?
  intro i
  rw [Section.getElem?_ofHeaders, List.getElem?_map, List.getElem?_mapIdx, Option.map_map]
  cases he : entries[i]? with
  | none => rw [Option.map_none, Option.map_none]
  | some e => exact congrArg some ((h e (List.mem_of_getElem? he)).ofHeader_eq i)

end SectionEntry

/-- A section table in address order that has the sections of the headers, in whatever order, and
still finds each by its number. -/
structure SectionTable.Arranges (t : SectionTable) (sections : List Section) : Prop where
  perm : t.sections.toList.Perm sections
  pairwise : t.sections.toList.Pairwise Section.Precedes
  numbered : ∀ (i : Nat) (s : Section), sections[i]? = some s → i + 1 ≤ 32767 →
    t.numbered? (.ofNat (i + 1)) = some s

theorem SectionTable.ofList_arranges {sections : List Section} (h : Section.Numbered sections)
    (layout : ImageLayout) : (ofList sections layout).Arranges sections := by
  refine ⟨ofList_perm sections layout, ofList_pairwise h, fun i s hs hi => ?_⟩
  have hint : (Int16.ofNat (i + 1)).toInt = i + 1 := by
    rw [Int16.toInt_ofNat_of_lt (by omega)]
    rfl
  have hpos : ¬ Int16.ofNat (i + 1) ≤ 0 := by
    rw [Int16.le_iff_toInt_le, hint]
    exact Int.not_le_of_gt (Int.natCast_succ_pos i)
  rw [numbered?_ofList h, if_neg hpos, hint, ← hs]
  rfl

namespace SectionEntry

variable {entries : List SectionEntry} {strings : StringTable} {data : Bytes} {offset : Nat}

/-- Headers that were written are read back in their order, with the string table they come with
the sections are those that were written, and the section table has all of them. -/
theorem readAll_written (hcount : entries.length ≤ 65535) (hsize : data.size ≤ maxOffset)
    (hplaced : ∀ e ∈ entries, e.IsPlaced strings)
    (hdata : data.HoldsAt offset (entries.flatMap bytes)) :
    ∃ headers, SectionHeader.readAll data offset (.ofNat entries.length) = .ok headers ∧
      headers = entries.map header ∧
      Section.ofHeaders headers (some strings.bytes.toByteArray) .file =
        entries.mapIdx toSection ∧
      (SectionTable.ofList (entries.mapIdx toSection) .file).Arranges
        (entries.mapIdx toSection) := by
  have hsections := ofHeaders_eq hplaced
  refine ⟨entries.map header, ?_, rfl, hsections, ?_⟩
  · have hlength : (entries.flatMap bytes).length =
        entries.length * SectionHeader.size := by
      rw [List.length_flatMap, List.map_congr_left fun e he => (hplaced e he).length_bytes,
        List.map_const', List.sum_replicate_nat]
    have hle := hdata.le_size
    rw [hlength] at hle
    have hnat : (UInt16.ofNat entries.length).toNat = entries.length :=
      UInt16.toNat_ofNat_of_lt (Nat.lt_succ_of_le hcount)
    rw [SectionHeader.readAll, hnat, checkTable, if_pos ⟨hle, Nat.le_trans hle hsize⟩]
    exact readFrom_eq hplaced hdata
  · rw [← hsections]
    exact SectionTable.ofList_arranges (Section.numbered_ofHeaders _ _ _) _

/-- A section with a long name, and one at a smaller address behind it. -/
def debugAndText : List SectionEntry :=
  [{ name := ".debug_info", nameAt := 4
     virtualSize := 0x234, rva := 0x2000, rawSize := 0x400, rawAt := 0x600
     relocationsAt := 0, lineNumbersAt := 0, relocationCount := 0, lineNumberCount := 0
     characteristics := 0x42000040
     zero_not_mem := by decide +kernel
     length_le := by decide +kernel
     not_slashed := fun h => absurd h (by decide +kernel) },
    { name := ".text", nameAt := 0
      virtualSize := 0, rva := 0x1000, rawSize := 0x200, rawAt := 0x400
      relocationsAt := 0, lineNumbersAt := 0, relocationCount := 0, lineNumberCount := 0
      characteristics := 0x60000020
      zero_not_mem := by decide +kernel
      length_le := by decide +kernel
      not_slashed := by
        rintro - rest h
        cases h }]

theorem debugAndText_fit : 4 + (StringTable.textsOf [".debug_info"]).length < 2 ^ 32 := by
  decide +kernel

theorem debugAndText_readAll :
    ∃ headers, SectionHeader.readAll
          (debugAndText.flatMap bytes).toByteArray 0
          (.ofNat debugAndText.length) = .ok headers ∧
      headers = debugAndText.map header ∧
      Section.ofHeaders headers
          (some (StringTable.ofNames [".debug_info"] debugAndText_fit).bytes.toByteArray) .file =
        debugAndText.mapIdx toSection ∧
      (SectionTable.ofList
          (debugAndText.mapIdx toSection) .file).Arranges
        (debugAndText.mapIdx toSection) := by
  refine readAll_written (by decide +kernel) ?_ ?_ (holdsAt_toByteArray _)
  · rw [List.size_toByteArray]
    decide +kernel
  · rw [debugAndText, List.forall_mem_cons, List.forall_mem_singleton]
    constructor
    · exact fun _ => ⟨StringTable.ofNames_has (i := 0) _ rfl, by decide +kernel⟩
    · exact fun h => absurd h (by decide +kernel)

end SectionEntry

end Postmortem
