import Postmortem.Proofs.Image.LoadedExports
import Postmortem.Proofs.Image.NearestFunction

/-!
# Names in the string table

A symbol or a section whose name does not fit in its record says where the string table has it. The
places count from the size field at the beginning of the table, which is read as text like all that
is behind it. So a record without a name gets the text of the size, if that is one.
-/
namespace Postmortem

namespace SymbolTable

variable {strings record : Bytes} {sections : SectionTable} {base : UInt64} {f : FunctionSymbol}

/-- Whether a record says that its name is at a place in the string table. -/
def NamedAt (record : Bytes) (place : UInt32) : Prop :=
  record.u32? 0 = some 0 ∧ record.u32? 4 = some place

/-- Whether a record is that of a function in a section that has a header, and what it says of that
function, apart from the name. -/
structure IsFunction (sections : SectionTable) (base : UInt64) (record : Bytes)
    (f : FunctionSymbol) : Prop where
  type : ∃ type, record.u16? 14 = some type ∧ isFunctionType type = true
  sectionNumber : record.i16? 12 = some f.sectionNumber
  address : ∃ s value, sections.numbered? f.sectionNumber = some s ∧ record.u32? 8 = some value ∧
    f.address = base + s.header.rva.toUInt64 + value.toUInt64
  storageClass : record.u8? 16 = some f.storageClass

theorem IsFunction.withName (h : IsFunction sections base record f) (name : String) :
    IsFunction sections base record { f with name } :=
  ⟨h.type, h.sectionNumber, h.address, h.storageClass⟩

theorem function?_eq_some_iff_isFunction :
    function? strings sections base record = some f ↔
      IsFunction sections base record f ∧ recordName? strings record = some f.name := by
  rw [function?_eq_some_iff]
  constructor
  · rintro ⟨type, number, s, name, value, storageClass, htype, hfunction, hnumber, hs, hname,
      hvalue, hclass, rfl⟩
    exact ⟨⟨⟨type, htype, hfunction⟩, hnumber, ⟨s, value, hs, hvalue, rfl⟩, hclass⟩, hname⟩
  · rintro ⟨⟨⟨type, htype, hfunction⟩, hnumber, ⟨s, value, hs, hvalue, haddress⟩, hclass⟩, hname⟩
    refine ⟨type, _, s, _, value, _, htype, hfunction, hnumber, hs, hname, hvalue, hclass, ?_⟩
    rw [← haddress]

/-- The first eight bytes of a record. -/
def nameField (record : Bytes) : Bytes := record.extract 0 8

theorem u32?_nameField (hsize : record.size = recordSize) {k : Nat} (hk : k ≤ 4) :
    (nameField record).u32? k = record.u32? k := by
  have hfield : (nameField record).size = 8 := by
    rw [nameField, ByteArray.size_extract, hsize]
    rfl
  obtain ⟨v, hv⟩ := (nameField record).exists_u32? k (by omega)
  rw [hv, (record.begins_extract 8).u32? hv]

theorem recordName?_eq (hsize : record.size = recordSize) :
    recordName? strings record =
      if record.u32? 0 = some 0 then
        (record.u32? 4).bind fun place => strings.text? place.toNat nameLimit
      else some (Text.lossy (nameField record).beforeZero) := by
  have hsize' : record.size = 18 := hsize
  obtain ⟨first, hfirst⟩ := record.exists_u32? 0 (by omega)
  have hslice : record.slice? 0 8 = some (nameField record) := record.slice?_eq_some 0 8 (by omega)
  rw [recordName?, hslice]
  simp only [Option.bind_eq_bind, Option.bind_some, u32?_nameField hsize (Nat.zero_le 4),
    u32?_nameField hsize (Nat.le_refl 4), hfirst, Option.some.injEq]
  by_cases hzero : first = 0
  · rw [if_pos hzero, if_pos hzero]
  · rw [if_neg hzero, if_neg hzero]
    rfl

theorem recordName?_of_namedAt (hsize : record.size = recordSize) {place : UInt32}
    (h : NamedAt record place) :
    recordName? strings record = strings.text? place.toNat nameLimit := by
  rw [recordName?_eq hsize, if_pos h.1, h.2, Option.bind_some]

end SymbolTable

/-! ## The text of the size field -/

namespace Bytes

/-- One byte of ASCII before a zero byte is the text of one character. -/
theorem textAt_singleton {b : Bytes} {low : UInt8} (hlow : b[0]? = some low)
    (hzero : b[1]? = some 0) (hpos : 0 < low.toNat) (hlt : low.toNat < 128) {limit : Nat}
    (hlimit : 1 ≤ limit) :
    b.TextAt 0 limit (String.singleton (Char.ofNat low.toNat)) := by
  have hbytes : Text.bytes (String.singleton (Char.ofNat low.toNat)) = [low] := by
    have hall : ∀ n : Fin 128, Text.bytes (String.singleton (Char.ofNat n)) = [.ofNat n] := by
      decide +kernel
    rw [hall ⟨low.toNat, hlt⟩, UInt8.ofNat_toNat]
  have hne : low ≠ 0 := by
    rintro rfl
    exact Nat.lt_irrefl 0 hpos
  constructor
  · rw [hbytes]
    rw [getElem?_eq_toList] at hlow
    cases hdata : b.data.toList with
    | nil => simp [hdata] at hlow
    | cons first rest =>
      obtain rfl : first = low := by simpa [hdata] using hlow
      exact ⟨[], rest, by simp [hdata], rfl⟩
  · simpa [hbytes] using hne.symm
  · simpa [hbytes] using hlimit
  · simp [hbytes, hzero]

end Bytes

namespace Section

variable {strings : Bytes} {layout : ImageLayout} {index : Nat} {h : SectionHeader}

theorem name_ofHeader_of_textAt {place : Nat} {name : String} (hplace : h.longNameAt? = some place)
    (htext : strings.TextAt place longNameLimit name) :
    (ofHeader (some strings) layout index h).name = name := by
  simp [ofHeader, hplace, htext.text?]

theorem name_ofHeader_of_not_textAt
    (hnone : ∀ place name, h.longNameAt? = some place → ¬ strings.TextAt place longNameLimit name) :
    (ofHeader (some strings) layout index h).name = h.shortName := by
  cases hplace : h.longNameAt? with
  | none => simp [ofHeader, hplace]
  | some place =>
    have htext : strings.text? place longNameLimit = none := by
      rw [Option.eq_none_iff_forall_ne_some]
      intro name hname
      exact hnone place name hplace (Bytes.text?_eq_some_iff.mp hname)
    simp [ofHeader, hplace, htext]

theorem exists_of_mem_ofHeaders {headers : List SectionHeader} {names : Option Bytes} {s : Section}
    (hs : s ∈ (SectionTable.ofList (ofHeaders headers names layout) layout).sections.toList) :
    ∃ index header, s = ofHeader names layout index header := by
  rw [(SectionTable.ofList_perm _ _).mem_iff] at hs
  obtain ⟨i, hi⟩ := List.mem_iff_getElem?.mp hs
  rw [getElem?_ofHeaders, Option.map_eq_some_iff] at hi
  obtain ⟨header, -, rfl⟩ := hi
  exact ⟨i, header, rfl⟩

end Section

namespace Image

open SymbolTable

/-- The function of record number `i` of a symbol table, if it is one and has a name. -/
def functionAt? (image : Image) (t : SymbolTable) (i : Nat) : Option FunctionSymbol :=
  function? (t.strings image.data) image.sections image.base (t.record image.data i)

/-- How the functions and the sections of an image with a symbol table have their names. -/
structure NamesByPlace (image : Image) (t : SymbolTable) : Prop where
  /-- The functions are those of the records that do not continue another one, in their order. Those
  that have no name are left out. -/
  functions_eq : ∃ primaries : List Nat, primaries.Pairwise (· < ·) ∧
    (∀ i, i ∈ primaries ↔ t.IsPrimary image.data i) ∧
      image.functions = primaries.filterMap (image.functionAt? t)
  /-- Where the record says that the name is in the string table, it is the text that is there. -/
  placed : ∀ i < t.count, ∀ f place,
    IsFunction image.sections image.base (t.record image.data i) f →
      NamedAt (t.record image.data i) place →
        (image.functionAt? t i = some f ↔
          (t.strings image.data).TextAt place.toNat nameLimit f.name)
  /-- A record without a name has the lowest byte of the size as its name, if that is a character
  and there is a zero byte behind it. -/
  nameless : ∀ i < t.count, ∀ f low,
    IsFunction image.sections image.base (t.record image.data i) f →
      NamedAt (t.record image.data i) 0 →
        (t.strings image.data)[0]? = some low → (t.strings image.data)[1]? = some 0 →
          0 < low.toNat → low.toNat < 128 →
            (image.functionAt? t i = some f ↔ f.name = String.singleton (Char.ofNat low.toNat))
  /-- Where it does not say so, the name is what the record has. -/
  inPlace : ∀ i < t.count, ∀ f,
    IsFunction image.sections image.base (t.record image.data i) f →
      (t.record image.data i).u32? 0 ≠ some 0 →
        (image.functionAt? t i = some f ↔
          f.name = Text.lossy (nameField (t.record image.data i)).beforeZero)
  /-- The nearest function is one of those, shown under its name. -/
  nearest : ∀ address m, image.nearestFunction? address = some m →
    ∃ f ∈ image.functions, m.address = f.address ∧ m.name ≠ "" ∧
      m.name = FunctionSymbol.shownName (!image.is64Bit) f.name
  /-- A section whose header says where its name is has the text that is there as its name. -/
  placedSection : ∀ s ∈ image.sections.sections.toList, ∀ place name,
    s.header.longNameAt? = some place →
      (t.strings image.data).TextAt place Section.longNameLimit name → s.name = name
  /-- A section has the name that is in its header if there is no text. -/
  shortSection : ∀ s ∈ image.sections.sections.toList,
    (∀ place name, s.header.longNameAt? = some place →
      ¬ (t.strings image.data).TextAt place Section.longNameLimit name) →
    s.name = s.header.shortName

/-- Whether what an image has at a place in the size field of the string table counts as no name: a
function is left out, and a section has the name that is in its header. -/
structure SparesSize (image : Image) (t : SymbolTable) : Prop where
  functions : ∀ i < t.count, ∀ place < 4, NamedAt (t.record image.data i) place →
    image.functionAt? t i = none
  sections : ∀ s ∈ image.sections.sections.toList, ∀ place < 4,
    s.header.longNameAt? = some place → s.name = s.header.shortName

variable {data : Bytes} {options : ImageOptions} {image : Image} {t : SymbolTable}

theorem ReadFrom.exists_symbolTable (h : image.ReadFrom data options)
    (ht : image.symbolTable = some t) : t.IsCovered image.data ∧ ∃ headers,
      image.sections = .ofList (Section.ofHeaders headers (some (t.strings image.data))
        options.layout) options.layout := by
  obtain ⟨headers, -, hsections⟩ := h.sections_eq
  rw [ht, Option.map_some, ← h.data_eq] at hsections
  refine ⟨?_, headers, hsections⟩
  obtain ⟨-, hnone⟩ | ⟨t', ht', -, hcovered⟩ := h.isCovered.symbolTable_cases
  · rw [ht] at hnone
    cases hnone
  · obtain rfl := Option.some.inj (ht.symm.trans ht')
    exact hcovered

theorem ReadFrom.namesByPlace (h : image.ReadFrom data options)
    (ht : image.symbolTable = some t) : image.NamesByPlace t := by
  obtain ⟨hcovered, headers, hsections⟩ := h.exists_symbolTable ht
  have hsize : ∀ i < t.count, (t.record image.data i).size = recordSize :=
    fun i hi => (hcovered.record i hi).2.1
  have hheader : ∀ s ∈ image.sections.sections.toList, ∃ index header,
      s = Section.ofHeader (some (t.strings image.data)) options.layout index header := by
    intro s hs
    rw [hsections] at hs
    exact Section.exists_of_mem_ofHeaders hs
  have hplaced : ∀ i < t.count, ∀ f place,
      IsFunction image.sections image.base (t.record image.data i) f →
        NamedAt (t.record image.data i) place → (image.functionAt? t i = some f ↔
          (t.strings image.data).TextAt place.toNat nameLimit f.name) := by
    intro i hi f place hf hplace
    rw [functionAt?, function?_eq_some_iff_isFunction, recordName?_of_namedAt (hsize i hi) hplace,
      Bytes.text?_eq_some_iff, and_iff_right hf]
  refine ⟨?_, hplaced, ?_, ?_, ?_, ?_, ?_⟩
  · obtain ⟨primaries, hsorted, hmem, hfunctions⟩ := hcovered.functions
    refine ⟨primaries, hsorted, hmem, ?_⟩
    rw [functions, ht]
    exact hfunctions _ _
  · intro i hi f low hf hplace hlow hzero hpos hlt
    have htext := Bytes.textAt_singleton hlow hzero hpos hlt (show 1 ≤ nameLimit by decide)
    rw [hplaced i hi f 0 hf hplace]
    constructor
    · intro hname
      exact Option.some.inj (hname.text?.symm.trans htext.text?)
    · intro hname
      rw [hname]
      exact htext
  · intro i hi f hf hfield
    rw [functionAt?, function?_eq_some_iff_isFunction, recordName?_eq (hsize i hi), if_neg hfield,
      and_iff_right hf, Option.some.injEq, eq_comm]
  · intro address m hm
    obtain ⟨before, f, after, hsplit, hf, -, -⟩ := SymbolMatch.exists_of_nearest? hm
    obtain ⟨-, haddress, -, -, hne, hname⟩ := SymbolMatch.ofFunction?_eq_some_iff.mp hf
    exact ⟨f, by rw [hsplit]; simp, haddress, hne, hname⟩
  · intro s hs place name hplace htext
    obtain ⟨index, header, rfl⟩ := hheader s hs
    exact Section.name_ofHeader_of_textAt hplace htext
  · intro s hs hnone
    obtain ⟨index, header, rfl⟩ := hheader s hs
    exact Section.name_ofHeader_of_not_textAt hnone

/-- The size field is spared exactly if no text can be read at the places in it that are asked
for. -/
theorem NamesByPlace.sparesSize_iff (h : image.NamesByPlace t) :
    image.SparesSize t ↔
      (∀ i < t.count, ∀ f place, IsFunction image.sections image.base (t.record image.data i) f →
        NamedAt (t.record image.data i) place → place < 4 →
          ∀ name, ¬ (t.strings image.data).TextAt place.toNat nameLimit name) ∧
      ∀ s ∈ image.sections.sections.toList, ∀ place < 4, s.header.longNameAt? = some place →
        ∀ name, (t.strings image.data).TextAt place Section.longNameLimit name →
          name = s.header.shortName := by
  constructor
  · rintro ⟨hfunctions, hsections⟩
    refine ⟨fun i hi f place hf hplace hlt name htext => ?_,
      fun s hs place hlt hplace name htext => ?_⟩
    · have hsome := (h.placed i hi _ place (hf.withName name) hplace).mpr htext
      rw [hfunctions i hi place hlt hplace] at hsome
      cases hsome
    · rw [← h.placedSection s hs place name hplace htext, hsections s hs place hlt hplace]
  · rintro ⟨hfunctions, hsections⟩
    refine ⟨fun i hi place hlt hplace => ?_, fun s hs place hlt hplace => ?_⟩
    · rw [Option.eq_none_iff_forall_ne_some]
      intro f hf
      have hisFunction := (function?_eq_some_iff_isFunction.mp hf).1
      exact hfunctions i hi f place hisFunction hplace hlt f.name
        ((h.placed i hi f place hisFunction hplace).mp hf)
    · by_cases htext : ∃ name, (t.strings image.data).TextAt place Section.longNameLimit name
      · obtain ⟨name, hname⟩ := htext
        rw [h.placedSection s hs place name hplace hname,
          hsections s hs place hlt hplace name hname]
      · refine h.shortSection s hs fun place' name hplace' hname => htext ⟨name, ?_⟩
        obtain rfl := Option.some.inj (hplace.symm.trans hplace')
        exact hname

/-- In an image without a symbol table no name comes from a string table. In one with a symbol table
the names are the texts at the places that are asked for, wherever these are. So nothing is read of
the size field exactly if no text is at such a place. -/
theorem names_of_parse {path : Option String} (h : parse data options path = .ok image) :
    (image.symbolTable = none →
      image.functions = [] ∧ ∀ s ∈ image.sections.sections.toList, s.name = s.header.shortName) ∧
    ∀ t, image.symbolTable = some t → image.NamesByPlace t ∧
      (image.SparesSize t ↔
        (∀ i < t.count, ∀ f place, IsFunction image.sections image.base (t.record image.data i) f →
          NamedAt (t.record image.data i) place → place < 4 →
            ∀ name, ¬ (t.strings image.data).TextAt place.toNat nameLimit name) ∧
        ∀ s ∈ image.sections.sections.toList, ∀ place < 4, s.header.longNameAt? = some place →
          ∀ name, (t.strings image.data).TextAt place Section.longNameLimit name →
            name = s.header.shortName) := by
  have hread := readFrom_of_parse h
  refine ⟨fun hnone => ⟨?_, fun s hs => ?_⟩, fun t ht => ?_⟩
  · rw [functions, hnone]
  · obtain ⟨headers, -, hsections⟩ := hread.sections_eq
    rw [hnone, Option.map_none] at hsections
    rw [hsections] at hs
    obtain ⟨index, header, rfl⟩ := Section.exists_of_mem_ofHeaders hs
    rfl
  · have hnames := hread.namesByPlace ht
    exact ⟨hnames, hnames.sparesSize_iff⟩

/-- A file with the function `start`, a function without a name behind it, and a section whose
header says that its name is at the place 0. Behind the size of the string table there is one
text. -/
def namelessFile (size : Nat) : Bytes :=
  ⟨⟨[0x4D, 0x5A] ++ List.replicate 58 0 ++ Bytes.littleEndian 4 0x40 ++ Headers.signature ++
    [0x4C, 0x01, 1, 0] ++ [0, 224, 2, 96].flatMap (Bytes.littleEndian 4) ++
    [0x0B, 0x01] ++ List.replicate 26 0 ++ Bytes.littleEndian 4 0x400000 ++ List.replicate 64 0 ++
    Text.field "/0" ++ [0x1000, 0x1000].flatMap (Bytes.littleEndian 4) ++ List.replicate 24 0 ++
    functionRecord "start" 0x10 0 ++ functionRecord "" 0x20 0 ++ Bytes.littleEndian 4 size ++
    List.replicate (size - 4) 0x61⟩⟩

/-- Where the two tables of such a file are. -/
def namelessTable (size : Nat) : SymbolTable :=
  { offset := 224, count := 2, stringsStart := 260, stringsStop := 260 + size }

/-- The byte 0x80 is no text, so a size of 128 is spared. -/
theorem namelessFile_sparesSize :
    ∃ image, parse (namelessFile 0x80) {} none = .ok image ∧
      image.functions = [⟨"start", 0x401010, 1, 2⟩] ∧
      image.NamesByPlace (namelessTable 0x80) ∧ image.SparesSize (namelessTable 0x80) := by
  obtain ⟨image, hparse, hfunctions, htable, hskipped, hsections⟩ : ∃ image,
      parse (namelessFile 0x80) {} none = .ok image ∧
        (image.functions = [⟨"start", 0x401010, 1, 2⟩] ∧
          image.symbolTable = some (namelessTable 0x80) ∧
          (∀ i < (namelessTable 0x80).count,
            ((namelessTable 0x80).record image.data i).u32? 0 = some 0 →
              image.functionAt? (namelessTable 0x80) i = none) ∧
          ∀ s ∈ image.sections.sections.toList, s.name = s.header.shortName) := by
    decide +kernel
  exact ⟨image, hparse, hfunctions, ((names_of_parse hparse).2 _ htable).1,
    fun i hi place _ hplace => hskipped i hi hplace.1, fun s hs place _ _ => hsections s hs⟩

/-- A size of 65 is the name of the function that has none, and of the section. -/
theorem namelessFile_names :
    ∃ image, parse (namelessFile 0x41) {} none = .ok image ∧
      image.functions = [⟨"start", 0x401010, 1, 2⟩, ⟨"A", 0x401020, 1, 2⟩] ∧
      image.nearestFunction? 0x401028 = some ⟨"A", 0x401020, 8⟩ ∧
      (image.sections.sections.toList.map fun s => (s.header.shortName, s.name)) = [("/0", "A")] ∧
      ¬ image.SparesSize (namelessTable 0x41) := by
  obtain ⟨image, hparse, hfunctions, hnearest, hsections, ⟨hzero, hplace⟩, hnamed⟩ : ∃ image,
      parse (namelessFile 0x41) {} none = .ok image ∧
        (image.functions = [⟨"start", 0x401010, 1, 2⟩, ⟨"A", 0x401020, 1, 2⟩] ∧
          image.nearestFunction? 0x401028 = some ⟨"A", 0x401020, 8⟩ ∧
          (image.sections.sections.toList.map fun s => (s.header.shortName, s.name)) =
            [("/0", "A")] ∧
          (((namelessTable 0x41).record image.data 1).u32? 0 = some 0 ∧
            ((namelessTable 0x41).record image.data 1).u32? 4 = some 0) ∧
          image.functionAt? (namelessTable 0x41) 1 ≠ none) := by
    decide +kernel
  exact ⟨image, hparse, hfunctions, hnearest, hsections, fun hspares =>
    hnamed (hspares.functions 1 (by decide) 0 (by decide) ⟨hzero, hplace⟩)⟩

end Image

end Postmortem
