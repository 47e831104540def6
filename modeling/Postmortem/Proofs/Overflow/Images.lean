import Postmortem.Proofs.Overflow.Questions

/-!
# Where images overflow

Two sums of the readers can leave their width, and no others: the address of a function in an image
that prefers a base near the end of the address space, and the address of a page of an image that is
loaded near the end of it. Where neither does, checked arithmetic makes no difference.
-/
namespace Postmortem

open Bytes

/-! ## Images with small bases -/

namespace SymbolTable

theorem address_of_function? {strings record : Bytes} {sections : SectionTable} {base : UInt64}
    {f : FunctionSymbol} (h : function? strings sections base record = some f) :
    ∃ rva value : UInt32, f.address = base + rva.toUInt64 + value.toUInt64 := by
  simp only [function?, Option.bind_eq_bind, Option.bind_eq_some_iff] at h
  obtain ⟨_, _, _, _, _, _, s, _, _, _, value, _, _, _, h⟩ := h
  exact ⟨s.header.rva, value, by rw [← Option.some.inj h]⟩

end SymbolTable

namespace Image

variable {image : Image}

/-- The last 8 GiB of the address space are the only bases from which a sum can wrap around. -/
theorem functionsFit_of_base_le (h : image.base.toNat + 2 ^ 33 ≤ 2 ^ 64) : image.FunctionsFit := by
  intro f hf
  unfold functions at hf
  split at hf
  · next t _ =>
    obtain ⟨record, _, hrecord⟩ := List.mem_filterMap.mp hf
    obtain ⟨rva, value, haddress⟩ := SymbolTable.address_of_function? hrecord
    have hrva := rva.toNat_lt
    have hvalue := value.toNat_lt
    rw [haddress, UInt64.le_iff_toNat_le, UInt64.toNat_add, UInt64.toNat_add,
      UInt32.toNat_toUInt64, UInt32.toNat_toUInt64]
    omega
  · cases hf

end Image

namespace Checked

/-! ## Whole images -/

/-- What checked arithmetic makes of an image: it stops where one of the two sums is too large, and
answers as arithmetic that wraps around does everywhere else. -/
structure ReadsAlike (image : Image) : Prop where
  offset_eq : ∀ rva, rvaToOffset image.sections rva = some (image.offset? rva)
  exports_eq : (exports image).run = some image.exports
  nearestExport_eq : ∀ address, nearestExport image address = some (image.nearestExport? address)
  functions_eq : functions image = if image.FunctionsFit then some image.functions else none
  nearestFunction_eq : ∀ address, nearestFunction image address =
    if image.FunctionsFit then some (image.nearestFunction? address) else none
  nearestSymbol_eq : ∀ address, nearestSymbol image address =
    if image.FunctionsFit then some (image.nearestSymbol? address) else none
  /-- The pages of the image, in any process that has it loaded, at any base. -/
  copyPages_eq : ∀ processes process base,
    copyPages processes process base image.sizeOfImage.toNat =
      if PagesFit base image.sizeOfImage.toNat
      then some (ModuleImage.copyPages processes process base image.sizeOfImage.toNat) else none
  /-- The image that is copied out of a process when this is the one in its first page. -/
  ofMemory_eq : ∀ processes process base limit first,
    processes.readMemory? process base ModuleImage.pageSize = some first →
    Image.ofMemoryBytes first = .ok image →
    ofMemory processes process base limit =
      if limit < image.sizeOfImage.toNat ∨ PagesFit base image.sizeOfImage.toNat
      then some (ModuleImage.ofMemory processes process base limit) else none
  /-- A question to the usual sources about an address in a module that has this image. -/
  ask_eq : ∀ (k : Question) w p a b (s : LiveSymbolizer) native m,
    s.chain = .standard native → s.cache.isAttached p = true →
    w.processes.moduleBase? p a = some b → (s.recordAt w p b).base ≤ a →
    contents w p (s.recordAt w p b) s = some m → m.image = some image →
    ask k w p a s = if image.FunctionsFit then some (k.ask w p a s) else none

/-- Reading an image never overflows, and of what is asked of it then only the functions of its
symbol table and the pages of its loaded copy can. -/
theorem readsAlike_of_parse {data : Bytes} {options : ImageOptions} {path : Option String}
    {image : Image} (h : Image.parse data options path = .ok image) :
    (parse data options path).run = some (.ok image) ∧ ReadsAlike image := by
  have hread := Image.readFrom_of_parse h
  refine ⟨(parse_agrees data options path).trans (congrArg some h), ?_⟩
  refine
    { offset_eq := rvaToOffset_eq image.sections
      exports_eq := exports_agrees image
      nearestExport_eq := nearestExport_eq image
      functions_eq := functions_eq hread
      nearestFunction_eq := nearestFunction_eq hread
      nearestSymbol_eq := nearestSymbol_eq hread
      copyPages_eq := fun processes process base =>
        copyPages_eq processes process base image.sizeOfImage.toNat_lt
      ofMemory_eq := fun processes process base limit first hfirst himage => ?_
      ask_eq := fun k w p a b s native m hchain hp ha hbase hm himage =>
        ask_eq k w p a b s hread hchain hp ha hbase hm himage }
  rw [ofMemory_eq]
  exact if_congr (ModuleImage.copyFits_iff hfirst himage) rfl rfl

/-- An image of 64 bits that prefers to be loaded at `base`, with a section at 0x1000 and the
function `start` 16 bytes behind its start. -/
def oneFunctionAt (base : UInt64) : Bytes :=
  ⟨⟨[0x4D, 0x5A] ++ List.replicate 58 0 ++ littleEndian 4 0x40 ++ Headers.signature ++
    littleEndian 2 0x8664 ++ littleEndian 2 1 ++ [0, 240, 1, 112].flatMap (littleEndian 4) ++
    littleEndian 2 0x20B ++ List.replicate 14 0 ++ littleEndian 4 0x1000 ++ littleEndian 4 0 ++
    littleEndian 8 base.toNat ++ [0x1000, 0x200].flatMap (littleEndian 4) ++
    List.replicate 16 0 ++ [0x2000, 0x200].flatMap (littleEndian 4) ++ List.replicate 48 0 ++
    Text.field ".text" ++ [0x1000, 0x1000].flatMap (littleEndian 4) ++ List.replicate 24 0 ++
    Text.field "start" ++ littleEndian 4 0x10 ++ littleEndian 2 1 ++ [0x20, 0, 2, 0] ++
    littleEndian 4 4⟩⟩

theorem oneFunctionAt_readsAlike :
    ∃ image, Image.parse (oneFunctionAt 0x140000000) {} none = .ok image ∧
      functions image = some [⟨"start", 0x140001010, 1, 2⟩] ∧ ReadsAlike image := by
  have hok : ∃ image, Image.parse (oneFunctionAt 0x140000000) {} none = .ok image ∧
      functions image = some [⟨"start", 0x140001010, 1, 2⟩] := by
    decide +kernel
  obtain ⟨image, hparse, hfunctions⟩ := hok
  exact ⟨image, hparse, hfunctions, (readsAlike_of_parse hparse).2⟩

/-- A process that has loaded an image of which the function has no address. -/
def loadedOverflow : World where
  files := ({} : Files).write "evil.exe" (oneFunctionAt 0xFFFFFFFFFFFFF000)
  processes := ({} : ProcessMap).addModule ⟨1⟩ 0x10000 0x2000 (some "evil.exe")

/-- A process that has loaded an image of two pages at the last page of the address space. -/
def loadedAtEnd : World where
  processes := (({} : ProcessMap).addModule ⟨1⟩ 0xFFFFFFFFFFFFF000 0x1000 none).addMemory ⟨1⟩
    0xFFFFFFFFFFFFF000 (oneFunctionAt 0x140000000)

/-- A function of an image that prefers the last page of the address space has no address there, and
a wrong one where the sum wraps around. An image that is loaded there may have a second page, which
has no address either. Questions about both stop. -/
theorem oneFunctionAt_overflows :
    (∃ image, Image.parse (oneFunctionAt 0xFFFFFFFFFFFFF000) {} none = .ok image ∧
      image.functions = [⟨"start", 0x10, 1, 2⟩] ∧ functions image = none ∧
      ∀ processes process,
        copyPages processes process 0xFFFFFFFFFFFFF000 image.sizeOfImage.toNat = none) ∧
    replies (.start loadedOverflow {} none none)
      [.operation (.attach ⟨1⟩), .operation (.ask .symbol ⟨1⟩ 0x10010)] = none ∧
    replies (.start loadedAtEnd {} none none)
      [.operation (.attach ⟨1⟩), .operation (.ask .symbol ⟨1⟩ 0xFFFFFFFFFFFFF800)] = none := by
  have hok : ∃ image, Image.parse (oneFunctionAt 0xFFFFFFFFFFFFF000) {} none = .ok image ∧
      image.functions = [⟨"start", 0x10, 1, 2⟩] ∧ functions image = none ∧
      image.sizeOfImage = 0x2000 := by
    decide +kernel
  refine ⟨?_, Option.isNone_iff_eq_none.mp (by decide +kernel),
    Option.isNone_iff_eq_none.mp (by decide +kernel)⟩
  obtain ⟨image, hparse, hwrapped, hnone, hsize⟩ := hok
  refine ⟨image, hparse, hwrapped, hnone, fun processes process => ?_⟩
  rw [hsize, copyPages_eq processes process _ (by decide), if_neg (by decide)]

end Checked

end Postmortem
