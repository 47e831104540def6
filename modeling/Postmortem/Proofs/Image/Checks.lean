import Mathlib
import Postmortem.Proofs.Module.Contents
import Postmortem.Proofs.Image.Truncation

/-!
# What is checked when an image is read

The headers of an image declare where its structures and tables end. Each end is checked against the
buffer once, before anything in the structure is read, so no read after the check can miss. An image
that was read has all it declares, and one that is refused as truncated declares more than there is.
-/
namespace Postmortem

namespace Bytes

theorem exists_u8? (b : Bytes) (offset : Nat) (h : offset < b.size) : ∃ v, b.u8? offset = some v :=
  ⟨b[offset], getElem?_pos b offset h⟩

theorem exists_u16? (b : Bytes) (offset : Nat) (h : offset + 2 ≤ b.size) :
    ∃ v, b.u16? offset = some v := by
  obtain ⟨v, hv⟩ := b.exists_number? offset 2 h
  exact ⟨.ofNat v, by rw [u16?, hv, Option.map_some]⟩

theorem exists_i16? (b : Bytes) (offset : Nat) (h : offset + 2 ≤ b.size) :
    ∃ v, b.i16? offset = some v := by
  obtain ⟨v, hv⟩ := b.exists_u16? offset h
  exact ⟨v.toInt16, by rw [i16?, hv, Option.map_some]⟩

theorem exists_u64? (b : Bytes) (offset : Nat) (h : offset + 8 ≤ b.size) :
    ∃ v, b.u64? offset = some v := by
  obtain ⟨v, hv⟩ := b.exists_number? offset 8 h
  exact ⟨.ofNat v, by rw [u64?, hv, Option.map_some]⟩

theorem slice?_eq_some (b : Bytes) (offset length : Nat) (h : offset + length ≤ b.size) :
    b.slice? offset length = some (b.extract offset (offset + length)) := by
  rw [slice?, range?, if_pos ⟨Nat.le_add_right offset length, h⟩]

end Bytes

/-- Whether every failure of a reader is one of those that `P` names. -/
def FailsOnly {α : Type} (P : ImageError → Prop) (x : Except ImageError α) : Prop :=
  ∀ e, x = .error e → P e

namespace FailsOnly

variable {α β : Type} {P : ImageError → Prop}

theorem ok (a : α) : FailsOnly P (.ok a) := fun _ h => nomatch h

theorem error {e : ImageError} (h : P e) : FailsOnly P (.error e : Except ImageError α) := by
  rintro _ ⟨⟩
  exact h

theorem bind {x : Except ImageError α} {f : α → Except ImageError β} (hx : FailsOnly P x)
    (hf : ∀ a, x = .ok a → FailsOnly P (f a)) : FailsOnly P (x >>= f) := by
  cases x with
  | error e => exact .error (hx e rfl)
  | ok a => exact hf a rfl

theorem guard {p : Prop} [Decidable p] {e : ImageError} {x : Except ImageError α}
    {f : PUnit → Except ImageError α} (he : p → P e) (h : ¬ p → FailsOnly P x) :
    FailsOnly P (if p then throw e >>= f else x) := by
  by_cases hp : p
  · rw [if_pos hp]
    exact .error (he hp)
  · rw [if_neg hp]
    exact h hp

/-- A field that is there is read. -/
theorem requireField {value : Option α} (stop size : Nat) (h : ∃ v, value = some v) :
    FailsOnly P (Postmortem.requireField value stop size) := by
  obtain ⟨v, rfl⟩ := h
  exact .ok v

theorem checkTable (table : TableKind) (offset size total : Nat) (hcap : offset + size ≤ maxOffset)
    (h : total < offset + size → P (.truncatedTable table (offset + size) total)) :
    FailsOnly P (Postmortem.checkTable table offset size total) := by
  unfold Postmortem.checkTable
  by_cases hfits : offset + size ≤ total
  · rw [if_pos ⟨hfits, hcap⟩]
    exact .ok ()
  · rw [if_neg fun hboth => hfits hboth.1, cappedEnd, Nat.min_eq_left hcap]
    exact .error (h (Nat.lt_of_not_le hfits))

/-- A reader without failures gives something. -/
theorem exists_ok {x : Except ImageError α} (h : FailsOnly (fun _ => False) x) :
    ∃ a, x = .ok a := by
  cases x with
  | error e => exact (h e rfl).elim
  | ok a => exact ⟨a, rfl⟩

end FailsOnly

theorem cappedEnd_eq {offset size : Nat} (h : offset + size ≤ maxOffset) :
    cappedEnd offset size = offset + size := Nat.min_eq_left h

theorem cappedEnd_le (offset size : Nat) : cappedEnd offset size ≤ offset + size :=
  Nat.min_le_left _ _

theorem fits_of_checkTable {table : TableKind} {offset size total : Nat}
    (h : checkTable table offset size total = .ok ()) : offset + size ≤ total := by
  unfold checkTable at h
  split at h
  · next hfits => exact hfits.1
  · cases h

/-! ## Fields after the check -/

variable {b : Bytes}

/-- A DOS header that is there can only have the wrong signature. -/
theorem DosHeader.read_fields (h : size ≤ b.size) :
    FailsOnly (· = .badDosSignature) (read b) := by
  have hsize : 64 ≤ b.size := h
  unfold read
  refine .guard (fun hlt => absurd h (Nat.not_le_of_lt hlt)) fun _ => ?_
  refine .bind (.requireField _ _ (b.exists_u16? 0 (by omega))) fun magic _ => ?_
  refine .guard (fun _ => rfl) fun _ => ?_
  refine .bind (.requireField _ _ (b.exists_u32? 0x3c (by omega))) fun headersAt _ => ?_
  exact .ok _

theorem FileHeader.read_fields {offset : Nat} (h : offset + size ≤ b.size) :
    FailsOnly (fun _ => False) (read b offset) := by
  have hsize : offset + 20 ≤ b.size := h
  unfold read
  refine .guard (fun hlt => absurd (cappedEnd_le offset size) (by omega)) fun _ => ?_
  refine .bind (.requireField _ _ (b.exists_u16? _ (by omega))) fun machine _ => ?_
  refine .bind (.requireField _ _ (b.exists_u16? _ (by omega))) fun sectionCount _ => ?_
  refine .bind (.requireField _ _ (b.exists_u32? _ (by omega))) fun timestamp _ => ?_
  refine .bind (.requireField _ _ (b.exists_u32? _ (by omega))) fun symbolsAt _ => ?_
  refine .bind (.requireField _ _ (b.exists_u32? _ (by omega))) fun symbolCount _ => ?_
  refine .bind (.requireField _ _ (b.exists_u16? _ (by omega))) fun optionalHeaderSize _ => ?_
  refine .bind (.requireField _ _ (b.exists_u16? _ (by omega))) fun characteristics _ => ?_
  exact .ok _

/-- How a header that is too small for its format is refused: the magic number tells the format, and
the declared size ends before the fixed part of it. -/
def OptionalHeader.TooSmall (b : Bytes) (offset : Nat) (size : UInt16) (e : ImageError) : Prop :=
  ∃ format : ImageFormat, b.u16? offset = some format.magic ∧ size.toNat < format.fixedSize ∧
    e = .truncatedHeader (offset + format.fixedSize) (cappedEnd offset size.toNat)

theorem ImageFormat.eq_magic_of_ofMagic? {m : UInt16} {format : ImageFormat}
    (h : ofMagic? m = some format) : m = format.magic := by
  unfold ofMagic? at h
  split at h
  · next hm => rw [hm, ← Option.some.inj h]
  · split at h
    · next hm => rw [hm, ← Option.some.inj h]
    · cases h

theorem ImageFormat.exists_imageBase? {offset : Nat} (format : ImageFormat)
    (h : offset + format.fixedSize ≤ b.size) : ∃ base, format.imageBase? b offset = some base := by
  cases format with
  | pe32 =>
    have hsize : offset + 96 ≤ b.size := h
    obtain ⟨v, hv⟩ := b.exists_u32? (offset + 28) (by omega)
    exact ⟨v.toUInt64, by rw [imageBase?, hv, Option.map_some]⟩
  | pe32Plus =>
    have hsize : offset + 112 ≤ b.size := h
    exact b.exists_u64? (offset + 24) (by omega)

theorem ImageFormat.le_fixedSize (format : ImageFormat) : 96 ≤ format.fixedSize := by
  cases format <;> decide

theorem OptionalHeader.read_fields {offset : Nat} {size : UInt16} (htwo : 2 ≤ size.toNat)
    (h : offset + size.toNat ≤ b.size) :
    FailsOnly (fun e => (∃ m, e = .badMagic m) ∨ TooSmall b offset size e)
      (read b offset size) := by
  unfold read
  refine .guard ?_ fun _ => ?_
  · rintro (hlt | hlt)
    · exact absurd (UInt16.lt_iff_toNat_lt.mp hlt) (Nat.not_lt_of_le htwo)
    · exact absurd (cappedEnd_le offset size.toNat) (by omega)
  obtain ⟨m, hm⟩ := b.exists_u16? offset (by omega)
  refine .bind (.requireField _ _ ⟨m, hm⟩) fun magic hmagic => ?_
  have hmagic : b.u16? offset = some magic := by
    rw [hm] at hmagic ⊢
    rw [Except.ok.inj hmagic]
  cases hformat : ImageFormat.ofMagic? magic with
  | none => exact .error (.inl ⟨magic, rfl⟩)
  | some format =>
    rw [ImageFormat.eq_magic_of_ofMagic? hformat] at hmagic
    refine .guard (fun hlt => .inr ⟨format, hmagic, hlt, rfl⟩) fun hlarge => ?_
    have hfixed : offset + format.fixedSize ≤ b.size := by omega
    have hleast := format.le_fixedSize
    have hcount : format.directoryCountAt + 4 = format.fixedSize := Nat.sub_add_cancel (by omega)
    refine .bind (.requireField _ _ (format.exists_imageBase? hfixed)) fun imageBase _ => ?_
    refine .bind (.requireField _ _ (b.exists_u32? _ (by omega))) fun entryPoint _ => ?_
    refine .bind (.requireField _ _ (b.exists_u32? _ (by omega))) fun sectionAlignment _ => ?_
    refine .bind (.requireField _ _ (b.exists_u32? _ (by omega))) fun fileAlignment _ => ?_
    refine .bind (.requireField _ _ (b.exists_u32? _ (by omega))) fun sizeOfImage _ => ?_
    refine .bind (.requireField _ _ (b.exists_u32? _ (by omega))) fun sizeOfHeaders _ => ?_
    refine .bind (.requireField _ _ (b.exists_u32? _ (by omega))) fun directoryCount _ => ?_
    exact .ok _

namespace SectionHeader

theorem read_fields {offset : Nat} (h : offset + size ≤ b.size) :
    FailsOnly (fun _ => False) (read b offset) := by
  have hsize : offset + 40 ≤ b.size := h
  unfold read
  refine .bind (.requireField _ _ ⟨_, b.slice?_eq_some offset 8 (by omega)⟩) fun nameField _ => ?_
  refine .bind (.requireField _ _ (b.exists_u32? _ (by omega))) fun virtualSize _ => ?_
  refine .bind (.requireField _ _ (b.exists_u32? _ (by omega))) fun rva _ => ?_
  refine .bind (.requireField _ _ (b.exists_u32? _ (by omega))) fun rawSize _ => ?_
  refine .bind (.requireField _ _ (b.exists_u32? _ (by omega))) fun rawAt _ => ?_
  refine .bind (.requireField _ _ (b.exists_u32? _ (by omega))) fun characteristics _ => ?_
  exact .ok _

theorem readFrom_fields {offset n : Nat} (h : offset + n * size ≤ b.size) :
    FailsOnly (fun _ => False) (readFrom b offset n) := by
  induction n generalizing offset with
  | zero => exact .ok []
  | succ n ih =>
    rw [Nat.succ_mul] at h
    unfold readFrom
    refine .bind (read_fields (by omega)) fun header _ => ?_
    refine .bind (ih (by omega)) fun rest _ => ?_
    exact .ok _

theorem length_of_readFrom {offset n : Nat} {headers : List SectionHeader}
    (h : readFrom b offset n = .ok headers) : headers.length = n := by
  induction n generalizing offset headers with
  | zero =>
    obtain rfl := Except.ok.inj h
    rfl
  | succ n ih =>
    obtain ⟨header, _, h⟩ := ok_of_bind h
    obtain ⟨rest, hrest, h⟩ := ok_of_bind h
    obtain rfl := Except.ok.inj h
    rw [List.length_cons, ih hrest]

end SectionHeader

/-! ## What an image declares -/

/-- The headers at the beginning of a buffer that say where everything else is. -/
structure Begun (data : Bytes) (dos : DosHeader) (file : FileHeader) : Prop where
  dos_eq : DosHeader.read data = .ok dos
  file_eq : FileHeader.read data (dos.headersAt.toNat + Headers.signature.length) = .ok file

/-- Where the section table is. -/
def sectionTableAt (dos : DosHeader) (file : FileHeader) : Nat :=
  dos.headersAt.toNat + Headers.optionalAt + file.optionalHeaderSize.toNat

/-- Where the string table is, right behind the records of the symbol table. -/
def FileHeader.stringsAt (file : FileHeader) : Nat :=
  file.symbolsAt.toNat + file.symbolCount.toNat * SymbolTable.recordSize

/-- Whether a file header describes a symbol table. -/
def FileHeader.HasSymbols (file : FileHeader) : Prop := file.symbolsAt ≠ 0 ∧ file.symbolCount ≠ 0

/-- The ends that the bytes of an image declare: those of its headers, and those of its tables with
the kind of each. A string table is at least as long as the field with its size. -/
inductive Declares (data : Bytes) (layout : ImageLayout) : Option TableKind → Nat → Prop
  | dos : Declares data layout none DosHeader.size
  | signature {dos : DosHeader} (h : DosHeader.read data = .ok dos) :
    Declares data layout none (dos.headersAt.toNat + Headers.signature.length)
  | file {dos : DosHeader} (h : DosHeader.read data = .ok dos) :
    Declares data layout none (dos.headersAt.toNat + Headers.optionalAt)
  | optional {dos : DosHeader} {file : FileHeader} (h : Begun data dos file) :
    Declares data layout none (sectionTableAt dos file)
  | sections {dos : DosHeader} {file : FileHeader} (h : Begun data dos file) :
    Declares data layout (some .sections)
      (sectionTableAt dos file + file.sectionCount.toNat * SectionHeader.size)
  | symbols {dos : DosHeader} {file : FileHeader} (h : Begun data dos file)
    (hlayout : layout = .file) (hsymbols : file.HasSymbols) :
    Declares data layout (some .symbols) file.stringsAt
  | stringsSize {dos : DosHeader} {file : FileHeader} (h : Begun data dos file)
    (hlayout : layout = .file) (hsymbols : file.HasSymbols) :
    Declares data layout (some .strings) (file.stringsAt + 4)
  | strings {dos : DosHeader} {file : FileHeader} (h : Begun data dos file)
    (hlayout : layout = .file) (hsymbols : file.HasSymbols) {size : UInt32}
    (hsize : data.u32? file.stringsAt = some size) :
    Declares data layout (some .strings) (file.stringsAt + max size.toNat 4)

/-- How an image is refused as truncated: something that it declares ends behind its last byte, or
the declared optional header has no room for a magic number or for what the number asks for. -/
inductive Overruns (data : Bytes) (layout : ImageLayout) : ImageError → Prop
  | header {stop : Nat} (h : Declares data layout none stop) (hstop : data.size < stop) :
    Overruns data layout (.truncatedHeader stop data.size)
  | table {kind : TableKind} {stop : Nat} (h : Declares data layout (some kind) stop)
    (hstop : data.size < stop) : Overruns data layout (.truncatedTable kind stop data.size)
  | noMagic {dos : DosHeader} {file : FileHeader} (h : Begun data dos file)
    (hsize : file.optionalHeaderSize.toNat < 2) :
    Overruns data layout (.truncatedHeader (dos.headersAt.toNat + Headers.optionalAt + 2) data.size)
  | tooSmall {dos : DosHeader} {file : FileHeader} {e : ImageError} (h : Begun data dos file)
    (he : OptionalHeader.TooSmall data (dos.headersAt.toNat + Headers.optionalAt)
      file.optionalHeaderSize e) : Overruns data layout e

/-! ## Readers that fail -/

variable {data : Bytes} {layout : ImageLayout}

theorem FailsOnly.mono {α : Type} {P Q : ImageError → Prop} {x : Except ImageError α}
    (h : FailsOnly P x) (hPQ : ∀ e, P e → Q e) : FailsOnly Q x :=
  fun e he => hPQ e (h e he)

theorem DosHeader.read_overruns :
    FailsOnly (fun e => e.IsTruncation → Overruns data layout e) (read data) := by
  by_cases h : size ≤ data.size
  · refine (read_fields h).mono ?_
    rintro _ rfl ⟨⟩
  · have hshort : data.size < size := Nat.lt_of_not_le h
    unfold read
    rw [if_pos hshort]
    exact .error fun _ => .header .dos hshort

/-- The end of a header is never capped: its place is a 32-bit number. -/
theorem headersAt_add_le (dos : DosHeader) {n : Nat} (h : n ≤ 2 ^ 33) :
    dos.headersAt.toNat + n ≤ maxOffset := by
  have hat := dos.headersAt.toNat_lt
  have hmax : maxOffset = 2 ^ 64 - 1 := rfl
  omega

theorem FileHeader.read_overruns {dos : DosHeader} (hdos : DosHeader.read data = .ok dos) :
    FailsOnly (fun e => e.IsTruncation → Overruns data layout e)
      (read data (dos.headersAt.toNat + Headers.signature.length)) := by
  have hend : dos.headersAt.toNat + Headers.signature.length + size =
      dos.headersAt.toNat + Headers.optionalAt := by
    rw [Headers.optionalAt, Nat.add_assoc]
  by_cases h : dos.headersAt.toNat + Headers.optionalAt ≤ data.size
  · exact (read_fields (hend ▸ h)).mono fun _ hfalse => hfalse.elim
  · have hshort := Nat.lt_of_not_le h
    have hcap : cappedEnd (dos.headersAt.toNat + Headers.signature.length) size =
        dos.headersAt.toNat + Headers.optionalAt := by
      rw [cappedEnd, hend, Nat.min_eq_left (headersAt_add_le dos (by decide))]
    unfold read
    rw [hcap, if_pos hshort]
    exact .error fun _ => .header (.file hdos) hshort

theorem OptionalHeader.read_overruns {dos : DosHeader} {file : FileHeader}
    (h : Begun data dos file) :
    FailsOnly (fun e => e.IsTruncation → Overruns data layout e)
      (read data (dos.headersAt.toNat + Headers.optionalAt) file.optionalHeaderSize) := by
  have hsize := file.optionalHeaderSize.toNat_lt
  have hcap : cappedEnd (dos.headersAt.toNat + Headers.optionalAt) file.optionalHeaderSize.toNat =
      sectionTableAt dos file := by
    apply cappedEnd_eq
    rw [Nat.add_assoc]
    apply headersAt_add_le
    have hat : Headers.optionalAt = 24 := rfl
    omega
  by_cases htwo : file.optionalHeaderSize.toNat < 2
  · have hlt : file.optionalHeaderSize < 2 := UInt16.lt_iff_toNat_lt.mpr htwo
    unfold read
    rw [hcap, if_pos (.inl hlt), sectionTableAt, Nat.max_eq_right (by omega)]
    exact .error fun _ => .noMagic h htwo
  by_cases hfits : sectionTableAt dos file ≤ data.size
  · refine (read_fields (Nat.le_of_not_lt htwo) hfits).mono ?_
    rintro e (⟨m, rfl⟩ | hsmall) he
    · cases he
    · exact .tooSmall h hsmall
  · have hshort := Nat.lt_of_not_le hfits
    unfold read
    rw [hcap, if_pos (.inr hshort), sectionTableAt, Nat.max_eq_left (by omega)]
    exact .error fun _ => .header (.optional h) hshort

/-- What the headers of a buffer are made of. -/
theorem Headers.begun_of_read {dos : DosHeader} {headers : Headers}
    (hdos : DosHeader.read data = .ok dos)
    (h : Headers.read data dos.headersAt.toNat = .ok headers) :
    Begun data dos headers.file ∧
      OptionalHeader.read data (dos.headersAt.toNat + optionalAt) headers.file.optionalHeaderSize =
        .ok headers.optional ∧
      headers.directories = DataDirectory.readAll data
        (dos.headersAt.toNat + optionalAt + headers.optional.format.fixedSize)
        headers.optional.directoryCount := by
  unfold Headers.read at h
  cases hfound : data.slice? dos.headersAt.toNat signature.length with
  | none =>
    rw [hfound] at h
    cases h
  | some found =>
    rw [hfound] at h
    dsimp only at h
    split at h
    · cases h
    · obtain ⟨file, hfile, h⟩ := ok_of_bind h
      obtain ⟨optional, hoptional, h⟩ := ok_of_bind h
      obtain rfl := Except.ok.inj h
      exact ⟨⟨hdos, hfile⟩, hoptional, rfl⟩

theorem Headers.read_overruns {dos : DosHeader} (hdos : DosHeader.read data = .ok dos) :
    FailsOnly (fun e => e.IsTruncation → Overruns data layout e)
      (Headers.read data dos.headersAt.toNat) := by
  unfold Headers.read
  by_cases h : dos.headersAt.toNat + signature.length ≤ data.size
  · rw [data.slice?_eq_some _ _ h]
    refine .guard (by rintro _ ⟨⟩) fun _ => ?_
    refine .bind (FileHeader.read_overruns hdos) fun file hfile => ?_
    refine .bind (OptionalHeader.read_overruns ⟨hdos, hfile⟩) fun optional _ => ?_
    exact .ok _
  · have hnone : data.slice? dos.headersAt.toNat signature.length = none := by
      rw [Bytes.slice?, Bytes.range?, if_neg fun hboth => h hboth.2]
    rw [hnone, cappedEnd_eq (headersAt_add_le dos (by decide))]
    exact .error fun _ => .header (.signature hdos) (Nat.lt_of_not_le h)

theorem SectionHeader.readAll_overruns {dos : DosHeader} {file : FileHeader}
    (h : Begun data dos file) :
    FailsOnly (fun e => e.IsTruncation → Overruns data layout e)
      (readAll data (sectionTableAt dos file) file.sectionCount) := by
  have hcap : sectionTableAt dos file + file.sectionCount.toNat * size ≤ maxOffset := by
    rw [sectionTableAt, Nat.add_assoc, Nat.add_assoc]
    apply headersAt_add_le
    have hoptional := file.optionalHeaderSize.toNat_lt
    have hcount := file.sectionCount.toNat_lt
    have hat : Headers.optionalAt = 24 := rfl
    rw [show size = 40 from rfl]
    omega
  unfold readAll
  refine .bind (.checkTable _ _ _ _ hcap fun hshort _ =>
    .table (.sections h) hshort) fun _ hcheck => ?_
  exact (readFrom_fields (fits_of_checkTable hcheck)).mono fun _ hfalse => hfalse.elim

theorem SymbolTable.locate_overruns {dos : DosHeader} {file : FileHeader} (h : Begun data dos file)
    (hlayout : layout = .file) (maxSymbols : Nat) :
    FailsOnly (fun e => e.IsTruncation → Overruns data layout e) (locate data file maxSymbols) := by
  have hat := file.symbolsAt.toNat_lt
  have hcount := file.symbolCount.toNat_lt
  have hmax : maxOffset = 2 ^ 64 - 1 := rfl
  have hcap : file.stringsAt + 2 ^ 32 ≤ maxOffset := by
    rw [FileHeader.stringsAt, show recordSize = 18 from rfl]
    omega
  unfold locate
  by_cases hnone : file.symbolsAt = 0 ∨ file.symbolCount = 0
  · rw [if_pos hnone]
    exact .ok none
  rw [if_neg hnone]
  have hsymbols : file.HasSymbols := not_or.mp hnone
  rw [FileHeader.stringsAt] at hcap
  refine .bind (.checkTable _ _ _ _ (by omega) fun hshort _ =>
    .table (.symbols h hlayout hsymbols) hshort) fun _ _ => ?_
  refine .bind (.checkTable _ _ _ _ (by omega) fun hshort _ =>
    .table (.stringsSize h hlayout hsymbols) hshort) fun _ hfield => ?_
  obtain ⟨n, hn⟩ := data.exists_u32? _ (fits_of_checkTable hfield)
  have hlt := n.toNat_lt
  rw [hn]
  refine .bind (.checkTable _ _ _ _ ?_ fun hshort _ =>
    .table (.strings h hlayout hsymbols hn) hshort) fun _ _ => ?_
  · rw [Option.getD_some]
    omega
  · exact .ok _

/-- An image that is refused as truncated declares more than there is. -/
theorem Image.parse_overruns (data : Bytes) (options : ImageOptions) (path : Option String) :
    FailsOnly (fun e => e.IsTruncation → Overruns data options.layout e)
      (parse data options path) := by
  unfold parse
  refine .bind DosHeader.read_overruns fun dos hdos => ?_
  refine .bind (Headers.read_overruns hdos) fun headers hheaders => ?_
  have hbegun := (Headers.begun_of_read hdos hheaders).1
  refine .bind (SectionHeader.readAll_overruns hbegun) fun sectionHeaders _ => ?_
  cases hlayout : options.layout with
  | memory => exact .ok _
  | file =>
    refine .bind (SymbolTable.locate_overruns hbegun rfl _) fun symbolTable _ => ?_
    exact .ok _

end Postmortem
