import Postmortem.Checked.Image
import Postmortem.Proofs.Image.Coverage
import Postmortem.Proofs.Overflow.Arithmetic

/-!
# Reading images in checked arithmetic

The place of every header and table is a sum of numbers that have at most 32 bits, so no offset
leaves 64 bits while an image is read, whatever its bytes are.
-/
namespace Postmortem

namespace Checked

variable {b : Bytes} {start : Nat}

theorem fileHeader_agrees (h : start < 2 ^ 33) :
    Agrees (fileHeader b start) (FileHeader.read b start) := by
  refine .guard fun _ => ?_
  refine .bind (.lift _) fun machine _ => ?_
  refine .field (by omega) fun sectionCount _ => ?_
  refine .field (by omega) fun timestamp _ => ?_
  refine .field (by omega) fun symbolsAt _ => ?_
  refine .field (by omega) fun symbolCount _ => ?_
  refine .field (by omega) fun optionalHeaderSize _ => ?_
  refine .field (by omega) fun characteristics _ => ?_
  exact .pure _

theorem imageBase_eq (format : ImageFormat) (h : start < 2 ^ 33) :
    imageBase format b start = some (format.imageBase? b start) := by
  cases format <;>
  · rw [imageBase, offset_of_lt (by omega)]
    rfl

theorem fixedSize_le (format : ImageFormat) : format.fixedSize ≤ 112 := by
  cases format <;> decide

theorem optionalHeader_agrees (size : UInt16) (h : start < 2 ^ 33) :
    Agrees (optionalHeader b start size) (OptionalHeader.read b start size) := by
  unfold optionalHeader OptionalHeader.read
  refine .ite (fun _ => .step (offset_of_lt (by omega)) (.throw _)) fun _ => ?_
  refine .bind (.lift _) fun magic _ => ?_
  cases ImageFormat.ofMagic? magic with
  | none => exact .throw _
  | some format =>
    have hsize := fixedSize_le format
    have hcount : format.directoryCountAt ≤ format.fixedSize := Nat.sub_le _ _
    refine .ite (fun _ => .step (offset_of_lt (by omega)) (.throw _)) fun _ => ?_
    refine .step (imageBase_eq format h) (.bind (.lift _) fun imageBase _ => ?_)
    refine .field (by omega) fun entryPoint _ => ?_
    refine .field (by omega) fun sectionAlignment _ => ?_
    refine .field (by omega) fun fileAlignment _ => ?_
    refine .field (by omega) fun sizeOfImage _ => ?_
    refine .field (by omega) fun sizeOfHeaders _ => ?_
    refine .field (by omega) fun directoryCount _ => ?_
    exact .pure _

theorem directoriesFrom_eq {i n : Nat} (h : start < 2 ^ 34) (hn : i + n ≤ DataDirectory.count) :
    directoriesFrom b start i n = some (DataDirectory.readable b (start + i * 8) n) := by
  have hcount : DataDirectory.count = 16 := rfl
  induction n generalizing i with
  | zero => rfl
  | succ n ih =>
    have hnext : start + i * 8 + 8 = start + (i + 1) * 8 := by omega
    have hrva : offset (start + i * 8) = some (start + i * 8) := offset_of_lt (by omega)
    have hsize : offset (start + i * 8 + 4) = some (start + i * 8 + 4) := offset_of_lt (by omega)
    rw [directoriesFrom, DataDirectory.readable, DataDirectory.read?, hnext, ih (by omega), hrva]
    simp only [Option.bind_eq_bind, Option.bind_some, hsize]
    cases b.u32? (start + i * 8) with
    | none => rfl
    | some rva => cases b.u32? (start + i * 8 + 4) <;> rfl

theorem directories_eq (stated : UInt32) (h : start < 2 ^ 34) :
    directories b start stated = some (DataDirectory.readAll b start stated) := by
  rw [directories, directoriesFrom_eq h (by omega), Nat.zero_mul, Nat.add_zero]
  rfl

theorem headers_agrees (h : start < 2 ^ 32) : Agrees (headers b start) (Headers.read b start) := by
  have hsignature : Headers.signature.length = 4 := rfl
  have hoptional : Headers.optionalAt = 24 := rfl
  unfold headers Headers.read
  cases b.slice? start Headers.signature.length with
  | none => exact .throw _
  | some found =>
    refine .guard fun _ => ?_
    refine .step (offset_of_lt (by omega)) (.bind (fileHeader_agrees (by omega)) fun file _ => ?_)
    refine .step (offset_of_lt (by omega)) ?_
    refine .bind (optionalHeader_agrees _ (by omega)) fun optional _ => ?_
    have hsize := fixedSize_le optional.format
    refine .step (offset_of_lt (by omega)) (.step (directories_eq _ (by omega)) ?_)
    exact .pure _

theorem sectionHeader_agrees (h : start < 2 ^ 33) :
    Agrees (sectionHeader b start) (SectionHeader.read b start) := by
  have hsize : SectionHeader.size = 40 := rfl
  refine .step (offset_of_lt (by omega)) ?_
  refine .bind (.lift _) fun nameField _ => ?_
  refine .field (by omega) fun virtualSize _ => ?_
  refine .field (by omega) fun rva _ => ?_
  refine .field (by omega) fun rawSize _ => ?_
  refine .field (by omega) fun rawAt _ => ?_
  refine .field (by omega) fun characteristics _ => ?_
  exact .pure _

theorem sectionHeadersFrom_agrees {i n : Nat} (h : start + (i + n) * SectionHeader.size < 2 ^ 33) :
    Agrees (sectionHeadersFrom b start i n)
      (SectionHeader.readFrom b (start + i * SectionHeader.size) n) := by
  have hsize : SectionHeader.size = 40 := rfl
  rw [hsize] at h ⊢
  induction n generalizing i with
  | zero => exact .pure _
  | succ n ih =>
    have hnext : start + i * 40 + 40 = start + (i + 1) * 40 := by omega
    refine .step (offset_of_lt (n := start + i * 40) (by omega)) ?_
    refine .bind (sectionHeader_agrees (by omega)) fun header _ => ?_
    rw [hsize, hnext]
    refine .bind (ih (by omega)) fun rest _ => ?_
    exact .pure _

theorem sectionHeaders_agrees (count : UInt16) (h : start < 2 ^ 32 + 2 ^ 17) :
    Agrees (sectionHeaders b start count) (SectionHeader.readAll b start count) := by
  have hcount := count.toNat_lt
  have hsize : count.toNat * SectionHeader.size = count.toNat * 40 := rfl
  refine .step (offset_of_lt (by omega)) (.bind (.lift _) fun _ _ => ?_)
  have hall : Agrees (sectionHeadersFrom b start 0 count.toNat)
      (SectionHeader.readFrom b (start + 0 * SectionHeader.size) count.toNat) :=
    sectionHeadersFrom_agrees (by rw [Nat.zero_add]; omega)
  rwa [Nat.zero_mul] at hall

theorem locate_agrees (file : FileHeader) (maxSymbols : Nat) :
    Agrees (locate b file maxSymbols) (SymbolTable.locate b file maxSymbols) := by
  have hat := file.symbolsAt.toNat_lt
  have hcount := file.symbolCount.toNat_lt
  have hsize : file.symbolCount.toNat * SymbolTable.recordSize = file.symbolCount.toNat * 18 := rfl
  refine .ite (fun _ => .pure _) fun _ => ?_
  refine .step (offset_of_lt (by omega)) (.bind (.lift _) fun _ _ => ?_)
  refine .step (offset_of_lt (by omega)) (.bind (.lift _) fun _ _ => .bind (.lift _) fun _ _ => ?_)
  have hstrings := ((b.u32? (file.symbolsAt.toNat +
    file.symbolCount.toNat * SymbolTable.recordSize)).getD 0).toNat_lt
  exact .step (offset_of_lt (by omega)) (.pure _)

theorem bounds_eq (h : SectionHeader) (layout : ImageLayout) :
    bounds h layout = some (h.bounds layout) := by
  have hrawAt := h.rawAt.toNat_lt
  have hrva := h.rva.toNat_lt
  have hextent := h.extent.toNat_lt
  cases layout with
  | file =>
    have hsize := (if h.virtualSize = 0 then h.rawSize else min h.virtualSize h.rawSize).toNat_lt
    rw [bounds, offset_of_lt (by omega)]
    rfl
  | memory =>
    rw [bounds, offset_of_lt (by omega)]
    rfl

theorem sections_eq (headers : List SectionHeader) (strings : Option Bytes) (layout : ImageLayout) :
    sections headers strings layout = some (Section.ofHeaders headers strings layout) := by
  rw [Section.ofHeaders, List.mapIdx_eq_zipIdx_map]
  refine mapM_eq_some fun e _ => ?_
  simp only [bounds_eq]
  rfl

/-- Reading an image stays within 64 bits, for all bytes and options. -/
theorem parse_agrees (data : Bytes) (options : ImageOptions) (path : Option String) :
    Agrees (parse data options path) (Image.parse data options path) := by
  refine .bind (.lift _) fun dos _ => ?_
  have hstart := dos.headersAt.toNat_lt
  refine .bind (headers_agrees hstart) fun headers _ => ?_
  have hoptional : Headers.optionalAt = 24 := rfl
  have hsize := headers.file.optionalHeaderSize.toNat_lt
  refine .step (offset_of_lt (by omega)) ?_
  refine .bind (sectionHeaders_agrees _ (by omega)) fun sectionHeaders _ => ?_
  cases options.layout with
  | file =>
    refine .bind (locate_agrees _ _) fun symbolTable _ => ?_
    exact .step (sections_eq _ _ _) (.pure _)
  | memory =>
    refine .bind (.pure none) fun symbolTable _ => ?_
    exact .step (sections_eq _ _ _) (.pure _)

end Checked

end Postmortem
