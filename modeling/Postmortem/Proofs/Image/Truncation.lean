import Postmortem.Proofs.Image.Prefix
import Postmortem.Proofs.Module.Contents

/-!
# Images that were cut off

When only the beginning of an image is there, either the image cannot be read because something of
it is not there, or headers, sections and symbols are read as they are in the whole image. Only
data directories may be missing: those that do not lie in the buffer read as empty. So nothing that
follows an image changes what is read of it.
-/
namespace Postmortem

variable {part whole : Bytes}

namespace DataDirectory

/-- Directories as they are read at `place` in a buffer of `size` bytes: those from some position on
that do not lie in the buffer read as empty, and the others are those of `whole`. -/
def ReadTo (place size : Nat) (part whole : List DataDirectory) : Prop :=
  ∃ k, part = whole.take k ++ List.replicate (count - k) .empty ∧
    (k < count → size < place + 8 * (k + 1))

theorem read?_of_begins (h : part.Begins whole) {offset : Nat} {d : DataDirectory}
    (hd : read? part offset = some d) : read? whole offset = some d := by
  simp only [read?, Option.bind_eq_bind, Option.bind_eq_some_iff] at hd ⊢
  obtain ⟨rva, hrva, size, hsize, hd⟩ := hd
  exact ⟨rva, h.u32? hrva, size, h.u32? hsize, hd⟩

theorem size_lt_of_read?_eq_none {b : Bytes} {offset : Nat} (h : read? b offset = none) :
    b.size < offset + 8 := by
  by_contra hsize
  obtain ⟨rva, hrva⟩ := b.exists_u32? offset (by omega)
  obtain ⟨size, hsize⟩ := b.exists_u32? (offset + 4) (by omega)
  simp [read?, hrva, hsize] at h

theorem length_readable_le (b : Bytes) (offset n : Nat) : (readable b offset n).length ≤ n := by
  induction n generalizing offset with
  | zero => exact Nat.le_refl 0
  | succ n ih =>
    unfold readable
    split
    · exact Nat.succ_le_succ (ih (offset + 8))
    · exact Nat.zero_le _

/-- In the shorter buffer fewer directories may be readable, since it ends before the next one. -/
theorem readable_of_begins (h : part.Begins whole) (offset n : Nat) :
    readable part offset n = (readable whole offset n).take (readable part offset n).length ∧
      ((readable part offset n).length < (readable whole offset n).length →
        part.size < offset + 8 * ((readable part offset n).length + 1)) := by
  induction n generalizing offset with
  | zero => exact ⟨rfl, fun hlt => absurd hlt (Nat.lt_irrefl 0)⟩
  | succ n ih =>
    obtain ⟨hkept, hend⟩ := ih (offset + 8)
    unfold readable
    cases hd : read? part offset with
    | none =>
      refine ⟨rfl, fun _ => ?_⟩
      have hsize := size_lt_of_read?_eq_none hd
      simpa using hsize
    | some d =>
      simp only [read?_of_begins h hd, List.length_cons, List.take_succ_cons, ← hkept,
        Nat.add_lt_add_iff_right, true_and]
      intro hlt
      have hsize := hend hlt
      omega

theorem readAll_of_begins (h : part.Begins whole) (offset : Nat) (stated : UInt32) :
    ReadTo offset part.size (readAll part offset stated) (readAll whole offset stated) := by
  obtain ⟨hkept, hend⟩ := readable_of_begins h offset (min stated.toNat count)
  have hle := length_readable_le whole offset (min stated.toNat count)
  simp only [readAll]
  generalize readable whole offset (min stated.toNat count) = found at hkept hend hle
  generalize readable part offset (min stated.toNat count) = kept at hkept hend
  by_cases hlt : kept.length < found.length
  · refine ⟨kept.length, ?_, fun _ => hend hlt⟩
    rw [List.take_append_of_le_length (Nat.le_of_lt hlt), ← hkept]
  · -- Nothing is cut off: the shorter buffer has all of the directories.
    rw [List.take_of_length_le (Nat.le_of_not_lt hlt)] at hkept
    refine ⟨count, ?_, fun h => absurd h (Nat.lt_irrefl count)⟩
    rw [hkept, List.take_of_length_le, Nat.sub_self, List.replicate_zero, List.append_nil]
    simp only [List.length_append, List.length_replicate]
    omega

end DataDirectory

theorem DosHeader.read_cut (h : part.Begins whole) : Cut Eq (read part) (read whole) := by
  have hsize := h.size_le
  unfold read
  refine .guard (.header ..) (fun hlt => Nat.lt_of_le_of_lt hsize hlt) fun _ => ?_
  refine .bindEq (.requireField _ _ _ fun _ => h.u16?) fun magic => ?_
  refine .guardEq fun _ => ?_
  refine .bindEq (.requireField _ _ _ fun _ => h.u32?) fun headersAt => ?_
  exact .ok rfl

theorem FileHeader.read_cut (h : part.Begins whole) (offset : Nat) :
    Cut Eq (read part offset) (read whole offset) := by
  have hsize := h.size_le
  unfold read
  refine .guard (.header ..) (fun hlt => Nat.lt_of_le_of_lt hsize hlt) fun _ => ?_
  refine .bindEq (.requireField _ _ _ fun _ => h.u16?) fun machine => ?_
  refine .bindEq (.requireField _ _ _ fun _ => h.u16?) fun sectionCount => ?_
  refine .bindEq (.requireField _ _ _ fun _ => h.u32?) fun timestamp => ?_
  refine .bindEq (.requireField _ _ _ fun _ => h.u32?) fun symbolsAt => ?_
  refine .bindEq (.requireField _ _ _ fun _ => h.u32?) fun symbolCount => ?_
  refine .bindEq (.requireField _ _ _ fun _ => h.u16?) fun optionalHeaderSize => ?_
  refine .bindEq (.requireField _ _ _ fun _ => h.u16?) fun characteristics => ?_
  exact .ok rfl

theorem ImageFormat.imageBase?_of_begins (h : part.Begins whole) (format : ImageFormat)
    (offset : Nat) (base : UInt64) (hbase : format.imageBase? part offset = some base) :
    format.imageBase? whole offset = some base := by
  cases format with
  | pe32 =>
    obtain ⟨v, hv, rfl⟩ := Option.map_eq_some_iff.mp hbase
    rw [imageBase?, h.u32? hv, Option.map_some]
  | pe32Plus => exact h.u64? hbase

theorem OptionalHeader.read_cut (h : part.Begins whole) (offset : Nat) (size : UInt16) :
    Cut Eq (read part offset size) (read whole offset size) := by
  have hsize := h.size_le
  unfold read
  refine .guard (.header ..) (Or.imp_right fun hlt => Nat.lt_of_le_of_lt hsize hlt) fun _ => ?_
  refine .bindEq (.requireField _ _ _ fun _ => h.u16?) fun magic => ?_
  cases ImageFormat.ofMagic? magic with
  | none => exact .error _
  | some format =>
    refine .guardEq fun _ => ?_
    refine .bindEq (.requireField _ _ _ (format.imageBase?_of_begins h offset)) fun imageBase => ?_
    refine .bindEq (.requireField _ _ _ fun _ => h.u32?) fun entryPoint => ?_
    refine .bindEq (.requireField _ _ _ fun _ => h.u32?) fun sectionAlignment => ?_
    refine .bindEq (.requireField _ _ _ fun _ => h.u32?) fun fileAlignment => ?_
    refine .bindEq (.requireField _ _ _ fun _ => h.u32?) fun sizeOfImage => ?_
    refine .bindEq (.requireField _ _ _ fun _ => h.u32?) fun sizeOfHeaders => ?_
    refine .bindEq (.requireField _ _ _ fun _ => h.u32?) fun directoryCount => ?_
    exact .ok rfl

/-- Headers of the beginning of an image whose signature is at `offset`. -/
structure Headers.ReadTo (offset size : Nat) (part whole : Headers) : Prop where
  file_eq : part.file = whole.file
  optional_eq : part.optional = whole.optional
  directories : DataDirectory.ReadTo (offset + optionalAt + whole.optional.format.fixedSize) size
    part.directories whole.directories

theorem Headers.read_cut (h : part.Begins whole) (offset : Nat) :
    Cut (ReadTo offset part.size) (read part offset) (read whole offset) := by
  unfold read
  cases hfound : part.slice? offset signature.length with
  | none => exact .short (.header ..) _
  | some found =>
    rw [h.slice? hfound]
    refine .guardEq fun _ => ?_
    refine .bindEq (FileHeader.read_cut h _) fun file => ?_
    refine .bindEq (OptionalHeader.read_cut h _ _) fun optional => ?_
    exact .ok ⟨rfl, rfl, DataDirectory.readAll_of_begins h _ _⟩

namespace SectionHeader

theorem read_cut (h : part.Begins whole) (offset : Nat) :
    Cut Eq (read part offset) (read whole offset) := by
  unfold read
  refine .bindEq (.requireField _ _ _ fun _ => h.slice?) fun nameField => ?_
  refine .bindEq (.requireField _ _ _ fun _ => h.u32?) fun virtualSize => ?_
  refine .bindEq (.requireField _ _ _ fun _ => h.u32?) fun rva => ?_
  refine .bindEq (.requireField _ _ _ fun _ => h.u32?) fun rawSize => ?_
  refine .bindEq (.requireField _ _ _ fun _ => h.u32?) fun rawAt => ?_
  refine .bindEq (.requireField _ _ _ fun _ => h.u32?) fun characteristics => ?_
  exact .ok rfl

theorem readFrom_cut (h : part.Begins whole) (offset n : Nat) :
    Cut Eq (readFrom part offset n) (readFrom whole offset n) := by
  induction n generalizing offset with
  | zero => exact .ok rfl
  | succ n ih =>
    unfold readFrom
    refine .bindEq (read_cut h offset) fun header => ?_
    refine .bindEq (ih (offset + size)) fun rest => ?_
    exact .ok rfl

theorem readAll_cut (h : part.Begins whole) (offset : Nat) (count : UInt16) :
    Cut Eq (readAll part offset count) (readAll whole offset count) := by
  unfold readAll
  refine .bind (.checkTable .sections offset _ h.size_le) fun _ _ _ => ?_
  exact readFrom_cut h offset count.toNat

end SectionHeader

namespace SymbolTable

/-- Whether the records and the strings of a symbol table lie in a buffer. -/
structure LiesIn (t : SymbolTable) (b : Bytes) : Prop where
  records : t.offset + t.count * recordSize ≤ b.size
  strings : t.stringsStop ≤ b.size

theorem locate_cut (h : part.Begins whole) (file : FileHeader) (maxSymbols : Nat) :
    Cut (fun t t' => t = t' ∧ ∀ table ∈ t, LiesIn table part)
      (locate part file maxSymbols) (locate whole file maxSymbols) := by
  unfold locate
  by_cases hnone : file.symbolsAt = 0 ∨ file.symbolCount = 0
  · rw [if_pos hnone, if_pos hnone]
    exact .ok ⟨rfl, by simp⟩
  · rw [if_neg hnone, if_neg hnone]
    refine .bind (.checkTable .symbols _ _ h.size_le) fun _ _ hrecords => ?_
    refine .bind (.checkTable .strings _ _ h.size_le) fun _ _ hsize => ?_
    obtain ⟨size, hpart⟩ := part.exists_u32? _ hsize
    rw [hpart, h.u32? hpart]
    refine .bind (.checkTable .strings _ _ h.size_le) fun _ _ hstrings => ?_
    refine .ok ⟨rfl, ?_⟩
    rintro table ⟨⟩
    refine ⟨Nat.le_trans ?_ hrecords, hstrings⟩
    exact Nat.add_le_add_left (Nat.mul_le_mul_right _ (Nat.min_le_left _ _)) _

variable {t : SymbolTable}

theorem strings_eq (h : part.Begins whole) (ht : t.LiesIn part) :
    t.strings part = t.strings whole := by
  rw [strings, strings, h.range?_eq ht.strings]

/-- Records of a table that lies in the shorter buffer are the same in both. -/
theorem slice?_record_eq (h : part.Begins whole) (ht : t.LiesIn part) {index : Nat}
    (hindex : index < t.count) :
    whole.slice? (t.offset + index * recordSize) recordSize =
      part.slice? (t.offset + index * recordSize) recordSize := by
  apply h.range?_eq
  have hrecords := ht.records
  have hle : (index + 1) * recordSize ≤ t.count * recordSize := Nat.mul_le_mul_right _ hindex
  rw [Nat.succ_mul] at hle
  omega

theorem recordsFrom_eq (h : part.Begins whole) (ht : t.LiesIn part) (index : Nat) :
    t.recordsFrom part index = t.recordsFrom whole index := by
  induction index using recordsFrom.induct t part with
  | case1 index hindex hslice =>
    rw [recordsFrom, recordsFrom, if_pos hindex, if_pos hindex, slice?_record_eq h ht hindex,
      hslice]
  | case2 index hindex record hslice ih =>
    rw [recordsFrom, recordsFrom.eq_def t whole, if_pos hindex, if_pos hindex,
      slice?_record_eq h ht hindex, hslice]
    exact congrArg (record :: ·) ih
  | case3 index hindex =>
    rw [recordsFrom, recordsFrom, if_neg hindex, if_neg hindex]

theorem functions_eq (h : part.Begins whole) (ht : t.LiesIn part) (sections : SectionTable)
    (imageBase : UInt64) :
    t.functions part sections imageBase = t.functions whole sections imageBase := by
  rw [functions, functions, strings_eq h ht, recordsFrom_eq h ht]

end SymbolTable

namespace Image

/-- Where the data directories of an image are. -/
def directoriesAt (image : Image) : Nat :=
  image.dos.headersAt.toNat + Headers.optionalAt + image.headers.optional.format.fixedSize

/-- What `whole` has in common with an image that was read from the beginning of its buffer:
everything but the data directories that do not lie in that beginning. -/
structure Continues (whole part : Image) : Prop where
  dos_eq : part.dos = whole.dos
  file_eq : part.headers.file = whole.headers.file
  optional_eq : part.headers.optional = whole.headers.optional
  directories : DataDirectory.ReadTo whole.directoriesAt part.data.size
    part.headers.directories whole.headers.directories
  sections_eq : part.sections = whole.sections
  symbolTable_eq : part.symbolTable = whole.symbolTable
  functions_eq : part.functions = whole.functions
  nearestFunction?_eq : ∀ address, part.nearestFunction? address = whole.nearestFunction? address

/-- Images with the same headers and a symbol table that lies in the shorter buffer. -/
theorem continues_of_liesIn (h : part.Begins whole) {image later : Image}
    (hpart : image.data = part) (hwhole : later.data = whole) (hdos : image.dos = later.dos)
    (hheaders : Headers.ReadTo later.dos.headersAt.toNat part.size image.headers later.headers)
    (hsections : image.sections = later.sections)
    (htable : image.symbolTable = later.symbolTable)
    (hlies : ∀ table ∈ image.symbolTable, table.LiesIn part) : later.Continues image := by
  have hfunctions : image.functions = later.functions := by
    rw [functions, functions, ← htable, hpart, hwhole, hsections, base, base, hheaders.optional_eq]
    cases hfound : image.symbolTable with
    | none => rfl
    | some t => exact SymbolTable.functions_eq h (hlies t hfound) _ _
  refine ⟨hdos, hheaders.file_eq, hheaders.optional_eq, ?_, hsections, htable, hfunctions, ?_⟩
  · rw [hpart]
    exact hheaders.directories
  · intro address
    rw [nearestFunction?, nearestFunction?, hfunctions, is64Bit, is64Bit, hheaders.optional_eq]

theorem parse_cut (h : part.Begins whole) (options : ImageOptions) (path : Option String) :
    Cut (fun image later => image.data = part ∧ later.Continues image)
      (parse part options path) (parse whole options path) := by
  unfold parse
  refine .bindEq (DosHeader.read_cut h) fun dos => ?_
  refine .bind (Headers.read_cut h _) fun headers later hheaders => ?_
  rw [hheaders.file_eq]
  refine .bindEq (SectionHeader.readAll_cut h _ _) fun sectionHeaders => ?_
  cases options.layout with
  | memory =>
    exact .ok ⟨rfl, continues_of_liesIn h rfl rfl rfl hheaders rfl rfl (by simp)⟩
  | file =>
    refine .bind (SymbolTable.locate_cut h _ _) fun t _ ht => ?_
    obtain ⟨rfl, hlies⟩ := ht
    refine .ok ⟨rfl, continues_of_liesIn h rfl rfl rfl hheaders ?_ rfl hlies⟩
    -- The names of the sections are in the string table, which lies in the shorter buffer.
    cases t with
    | none => rfl
    | some table => simp only [Option.map_some, SymbolTable.strings_eq h (hlies table rfl)]

/-- An image that was cut off anywhere either fails to be read because something is not there or is
read as the whole image is, and one with more bytes after it is read as it was before. -/
theorem truncated_or_continues {data : Bytes} {options : ImageOptions} {path : Option String}
    {image : Image} (hparse : parse data options path = .ok image) :
    (∀ n, (∃ e, parse (data.extract 0 n) options path = .error e ∧ e.IsTruncation) ∨
        ∃ cut, parse (data.extract 0 n) options path = .ok cut ∧ cut.data = data.extract 0 n ∧
          image.Continues cut) ∧
      ∀ extra, ∃ longer, parse (data ++ extra) options path = .ok longer ∧
        longer.data = data ++ extra ∧ longer.Continues image := by
  constructor
  · intro n
    have hcut := parse_cut (Bytes.begins_extract data n) options path
    rw [hparse] at hcut
    exact hcut.of_whole_ok
  · intro extra
    have hcut := parse_cut (Bytes.begins_append data extra) options path
    rw [hparse] at hcut
    obtain ⟨longer, hlonger, _, hcontinues⟩ := hcut.of_part_ok
    exact ⟨longer, hlonger, (data_of_parse hlonger).1, hcontinues⟩

/-- An image with one data directory, a section, and two functions. The names of the section and of
the first function are in the string table. -/
def longNames : Bytes :=
  ⟨⟨[0x4D, 0x5A] ++ List.replicate 58 0 ++ [0x40, 0, 0, 0] ++ Headers.signature ++
    [0x4C, 0x01, 1, 0, 0, 0, 0, 0, 232, 0, 0, 0, 2, 0, 0, 0, 104, 0, 0, 0] ++
    [0x0B, 0x01] ++ List.replicate 90 0 ++ [1, 0, 0, 0] ++ [0, 0x20, 0, 0, 0x28, 0, 0, 0] ++
    -- the section, whose name is 4 bytes from the start of the string table
    [0x2F, 0x34, 0, 0, 0, 0, 0, 0, 0, 0x10, 0, 0, 0, 0x10, 0, 0] ++ List.replicate 24 0 ++
    -- a function whose name is 15 bytes from there, and the function `main`
    [0, 0, 0, 0, 15, 0, 0, 0, 0x10, 0, 0, 0, 1, 0, 0x20, 0, 2, 0] ++
    [0x6D, 0x61, 0x69, 0x6E, 0, 0, 0, 0, 0x20, 0, 0, 0, 1, 0, 0x20, 0, 2, 0] ++
    [25, 0, 0, 0] ++ ".text$main".toUTF8.data.toList ++ [0] ++
    "long_name".toUTF8.data.toList ++ [0]⟩⟩

theorem longNames_truncated_or_continues :
    ∃ image, parse longNames {} none = .ok image ∧
      (image.sections.sections.toList.map (·.name) = [".text$main"] ∧
        image.functions = [⟨"long_name", 0x1010, 1, 2⟩, ⟨"main", 0x1020, 1, 2⟩]) ∧
      (∀ n, (∃ e, parse (longNames.extract 0 n) {} none = .error e ∧ e.IsTruncation) ∨
          ∃ cut, parse (longNames.extract 0 n) {} none = .ok cut ∧
            cut.data = longNames.extract 0 n ∧ image.Continues cut) ∧
        ∀ extra, ∃ longer, parse (longNames ++ extra) {} none = .ok longer ∧
          longer.data = longNames ++ extra ∧ longer.Continues image := by
  obtain ⟨image, hparse, hnames⟩ : ∃ image, parse longNames {} none = .ok image ∧
      (image.sections.sections.toList.map (·.name) = [".text$main"] ∧
        image.functions = [⟨"long_name", 0x1010, 1, 2⟩, ⟨"main", 0x1020, 1, 2⟩]) := by
    decide +kernel
  exact ⟨image, hparse, hnames, truncated_or_continues hparse⟩

end Image

end Postmortem
