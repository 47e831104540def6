import Postmortem.Proofs.Image.LoadedExports
import Postmortem.Proofs.Module.Contents
import Postmortem.Proofs.Process.Regions

/-!
# Images in memory

An image is copied out of a process page by page. Where the memory of the process is one region, the
copy is what the region holds from the base on, cut off or filled up with zeros at the size that the
image states. So the image that is read is that of a single copy.
-/
namespace Postmortem

namespace ProcessMap

/-- All memory of a process is one region, the given bytes from an address on. -/
def OnlyMemory (m : ProcessMap) (p : ProcessId) (start : UInt64) (bytes : Bytes) : Prop :=
  ∀ other b, (m.layout p).memory.get? other = some b ↔ other = start ∧ b = bytes

theorem onlyMemory_addMemory {m : ProcessMap} {p : ProcessId}
    (h : ∀ other, (m.layout p).memory.get? other = none) (start : UInt64) (bytes : Bytes) :
    (m.addMemory p start bytes).OnlyMemory p start bytes := by
  intro other b
  rw [get?_memory_addMemory]
  by_cases hother : other = start
  · simp [hother, eq_comm]
  · simp [hother, h]

/-- What a region holds from an address on. -/
def heldFrom (start : UInt64) (bytes : Bytes) (base : UInt64) : Bytes :=
  bytes.extract (base.toNat - start.toNat) bytes.size

theorem size_heldFrom (start : UInt64) (bytes : Bytes) (base : UInt64) :
    (heldFrom start bytes base).size = bytes.size - (base.toNat - start.toNat) := by
  rw [heldFrom, ByteArray.size_extract, Nat.min_self]

theorem extract_heldFrom (start : UInt64) (bytes : Bytes) (base : UInt64) (skip count : Nat) :
    (heldFrom start bytes base).extract skip (skip + count) =
      bytes.extract (base.toNat - start.toNat + skip)
        (base.toNat - start.toNat + skip + count) := by
  apply Bytes.ext_getElem?
  intro i
  simp only [heldFrom, Bytes.getElem?_extract]
  have hnone : bytes.size ≤ base.toNat - start.toNat + skip + i →
      bytes[base.toNat - start.toNat + skip + i]? = none := Bytes.getElem?_of_size_le
  grind

namespace OnlyMemory

variable {m : ProcessMap} {p : ProcessId} {start base : UInt64} {bytes : Bytes}

theorem separateRegions (h : m.OnlyMemory p start bytes) (hcovers : Covers start bytes.size base) :
    SeparateRegions (m.MemoryAt p) where
  size_pos := by
    rintro other _ ⟨b, hb, rfl⟩
    obtain ⟨-, rfl⟩ := (h _ _).mp hb
    have hend := hcovers.2
    have hbegin := hcovers.1
    omega
  start_unique := by
    rintro other _ other' _ address ⟨b, hb, rfl⟩ ⟨b', hb', rfl⟩ - -
    rw [((h _ _).mp hb).1, ((h _ _).mp hb').1]

/-- From an address of the region on, as much can be read as the region holds. -/
theorem readMemory?_eq (h : m.OnlyMemory p start bytes) (hcovers : Covers start bytes.size base)
    {skip : Nat} (hskip : base.toNat + skip < UInt64.size) (count : Nat) :
    m.readMemory? p (base + .ofNat skip) count =
      if skip < (heldFrom start bytes base).size then
        some ((heldFrom start bytes base).extract skip (skip + count)) else none := by
  have haddress : (base + .ofNat skip).toNat = base.toNat + skip := by
    rw [UInt64.toNat_add, UInt64.toNat_ofNat_of_lt' (by omega), Nat.mod_eq_of_lt hskip]
  obtain ⟨hbegin, hend⟩ := hcovers
  have hsize := size_heldFrom start bytes base
  by_cases hleft : skip < (heldFrom start bytes base).size
  · have hthere : Covers start bytes.size (base + .ofNat skip) := by
      constructor <;> omega
    rw [if_pos hleft, readMemory?_of_covers (h.separateRegions ⟨hbegin, hend⟩)
      ((h _ _).mpr ⟨rfl, rfl⟩) hthere, haddress,
      show base.toNat + skip - start.toNat = base.toNat - start.toNat + skip by omega,
      ← extract_heldFrom]
  · rw [if_neg hleft]
    refine readMemory?_of_not_covers (fun other b hb hthere => ?_) count
    obtain ⟨rfl, rfl⟩ := (h _ _).mp hb
    have hlast := hthere.2
    omega

/-- The region covers the address itself, so the first bytes of it can be read there. -/
theorem readMemory?_base (h : m.OnlyMemory p start bytes) (hcovers : Covers start bytes.size base)
    (count : Nat) :
    m.readMemory? p base count = some ((heldFrom start bytes base).extract 0 count) := by
  have hheld : 0 < (heldFrom start bytes base).size := by
    obtain ⟨hbegin, hend⟩ := hcovers
    rw [size_heldFrom]
    omega
  have hfits : base.toNat + 0 < UInt64.size := base.toNat_lt
  have hread := h.readMemory?_eq hcovers hfits count
  rwa [if_pos hheld, Nat.zero_add, show base + .ofNat 0 = base from UInt64.add_zero base] at hread

end OnlyMemory

end ProcessMap

namespace ModuleImage

open ProcessMap

variable {m : ProcessMap} {p : ProcessId} {start base : UInt64} {bytes : Bytes} {size : Nat}

/-- After some pages, everything before their end was copied, and there are zeros behind it. -/
theorem getElem?_firstPages (h : m.OnlyMemory p start bytes)
    (hcovers : Covers start bytes.size base) (hfits : base.toNat + size ≤ UInt64.size) {n : Nat}
    (hn : n ≤ (size + pageSize - 1) / pageSize) (i : Nat) :
    (firstPages m p base size n)[i]? =
      if i < size then
        if i < n * pageSize then some ((heldFrom start bytes base)[i]?.getD 0) else some 0
      else none := by
  induction n with
  | zero =>
    rw [Nat.zero_mul, firstPages, List.range_zero, List.foldl_nil, Bytes.getElem?_zeros]
    simp
  | succ n ih =>
    have hpage : pageSize = 0x1000 := rfl
    have ih := ih (Nat.le_of_succ_le hn)
    have hskip : base.toNat + n * pageSize < UInt64.size := by
      have hlt : n * pageSize < size := by rw [hpage] at hn ⊢; omega
      omega
    rw [firstPages_succ, h.readMemory?_eq hcovers hskip]
    by_cases hleft : n * pageSize < (heldFrom start bytes base).size
    · rw [if_pos hleft]
      dsimp only
      rw [Bytes.getElem?_overwrite, Bytes.getElem?_extract, ih, ByteArray.size_extract,
        size_firstPages]
      by_cases hpast : n * pageSize ≤ i
      · rw [Nat.add_sub_cancel' hpast]
        -- What the region does not hold reads as missing there, and is a zero of the copy.
        by_cases hheld : i < (heldFrom start bytes base).size
        · rw [getElem?_pos _ i hheld]
          grind
        · rw [Bytes.getElem?_of_size_le (Nat.le_of_not_lt hheld)]
          grind
      · grind
    · rw [if_neg hleft]
      dsimp only
      rw [ih]
      have hbeyond : (heldFrom start bytes base).size ≤ i →
          (heldFrom start bytes base)[i]? = none := Bytes.getElem?_of_size_le
      grind

/-- The pages together are what the region holds from the base on, with zeros behind it. -/
theorem copyPages_onlyMemory (h : m.OnlyMemory p start bytes)
    (hcovers : Covers start bytes.size base) (hfits : base.toNat + size ≤ UInt64.size) :
    copyPages m p base size = (heldFrom start bytes base).resize size := by
  apply Bytes.ext_getElem?
  intro i
  rw [copyPages_eq_firstPages, getElem?_firstPages h hcovers hfits (Nat.le_refl _),
    Bytes.getElem?_resize]
  have hpages : i < size → i < (size + pageSize - 1) / pageSize * pageSize := by
    rw [show pageSize = 0x1000 from rfl]
    omega
  grind

/-- In a process whose only memory holds an image from its base on, the first page has to have its
headers, and they must not state more than the limit. The image is then that of what the region
holds, cut off or filled up with zeros at the size that they state. -/
theorem ofMemory_onlyMemory (h : m.OnlyMemory p start bytes)
    (hcovers : Covers start bytes.size base) (limit : Nat) :
    (∀ e, Image.ofMemoryBytes ((heldFrom start bytes base).extract 0 pageSize) = .error e →
        ofMemory m p base limit = .error (.ofImageError e)) ∧
      ∀ headers,
        Image.ofMemoryBytes ((heldFrom start bytes base).extract 0 pageSize) = .ok headers →
        (limit < headers.sizeOfImage.toNat → ofMemory m p base limit =
            .error (.ofAccessError (.tooLarge limit headers.sizeOfImage.toNat))) ∧
          (headers.sizeOfImage.toNat ≤ limit →
            base.toNat + headers.sizeOfImage.toNat ≤ UInt64.size →
            ofMemory m p base limit =
              (Image.ofMemoryBytes ((heldFrom start bytes base).resize
                headers.sizeOfImage.toNat)).mapError .ofImageError) := by
  have hread := ofMemory_of_read (h.readMemory?_base hcovers pageSize) limit
  refine ⟨fun e he => ?_, fun headers hheaders => ⟨fun hlimit => ?_, fun hlimit hfits => ?_⟩⟩
  · rw [hread, he]
  · rw [hread, hheaders]
    exact if_pos hlimit
  · rw [hread, hheaders]
    dsimp only
    rw [if_neg (Nat.not_lt.mpr hlimit), copyPages_onlyMemory h hcovers hfits]

/-- The headers of an image of one page and three bytes. -/
def pageAndThree : Bytes :=
  ⟨⟨[0x4D, 0x5A] ++ List.replicate 58 0 ++ Bytes.littleEndian 4 0x40 ++ Headers.signature ++
    [0x4C, 0x01] ++ List.replicate 14 0 ++ [96, 0, 0, 0] ++ [0x0B, 0x01] ++ List.replicate 54 0 ++
    Bytes.littleEndian 4 0x1003 ++ List.replicate 36 0⟩⟩

/-- Its first page and one more byte. -/
def pageAndOne : Bytes := pageAndThree ++ (Bytes.zeros 3912 ++ [7].toByteArray)

/-- Memory that begins two bytes before the image has the page and one byte of it. The copy has the
three bytes behind the page, of which the last two are zeros. -/
theorem pageAndOne_ofMemory :
    ∃ m : ProcessMap, m.OnlyMemory ⟨1⟩ 0xFFFE ([5, 5].toByteArray ++ pageAndOne) ∧
      Covers 0xFFFE ([5, 5].toByteArray ++ pageAndOne).size 0x10000 ∧
      ofMemory m ⟨1⟩ 0x10000 0x1002 = .error (.ofAccessError (.tooLarge 0x1002 0x1003)) ∧
      ∃ image, ofMemory m ⟨1⟩ 0x10000 0x1003 = .ok image ∧
        image.data = pageAndOne ++ Bytes.zeros 2 := by
  have honly := onlyMemory_addMemory (m := {}) (p := ⟨1⟩) (fun _ => rfl) 0xFFFE
    ([5, 5].toByteArray ++ pageAndOne)
  have hheaders : pageAndThree.size = 184 := by decide +kernel
  have hsize : pageAndOne.size = 0x1001 := by
    simp [pageAndOne, ByteArray.size_append, hheaders]
  have hcovers : Covers 0xFFFE ([5, 5].toByteArray ++ pageAndOne).size 0x10000 := by
    simp [ByteArray.size_append, hsize, Covers]
  have hheld : heldFrom 0xFFFE ([5, 5].toByteArray ++ pageAndOne) 0x10000 = pageAndOne :=
    ByteArray.extract_append_eq_right rfl ByteArray.size_append
  have hfirst : pageAndOne.extract 0 pageSize = pageAndThree ++ Bytes.zeros 3912 := by
    rw [pageAndOne, ← ByteArray.append_assoc]
    apply ByteArray.extract_append_eq_left
    simp [ByteArray.size_append, hheaders, pageSize]
  have hcopy : pageAndOne.resize 0x1003 = pageAndOne ++ Bytes.zeros 2 := by
    rw [Bytes.resize_of_size_le (by omega), hsize]
  have hparse : ∀ rest, ∃ image, Image.ofMemoryBytes (pageAndThree ++ rest) = .ok image ∧
      image.data = pageAndThree ++ rest ∧ image.sizeOfImage = 0x1003 := by
    obtain ⟨small, hsmall, hstated⟩ : ∃ small, Image.ofMemoryBytes pageAndThree = .ok small ∧
        small.sizeOfImage = 0x1003 := by
      decide +kernel
    intro rest
    have hcut := Image.parse_cut (Bytes.begins_append pageAndThree rest) { layout := .memory } none
    rw [show Image.parse pageAndThree _ _ = _ from hsmall] at hcut
    obtain ⟨longer, hlonger, -, hcontinues⟩ := hcut.of_part_ok
    refine ⟨longer, hlonger, (Image.data_of_parse hlonger).1, ?_⟩
    rw [← hstated, Image.sizeOfImage, Image.sizeOfImage, hcontinues.optional_eq]
  obtain ⟨headers, hpage, -, hstated⟩ := hparse (Bytes.zeros 3912)
  obtain ⟨image, himage, hdata, -⟩ := hparse (Bytes.zeros 3912 ++ [7].toByteArray ++ Bytes.zeros 2)
  have hread := fun limit =>
    (ofMemory_onlyMemory honly hcovers limit).2 headers (by rw [hheld, hfirst, hpage])
  simp only [hstated, hheld] at hread
  rw [← ByteArray.append_assoc] at himage hdata
  refine ⟨_, honly, hcovers, (hread 0x1002).1 (by decide), image, ?_, hdata⟩
  have hcopied := (hread 0x1003).2 (by decide) (by decide)
  rw [show (0x1003 : UInt32).toNat = 0x1003 from rfl, hcopy, pageAndOne, himage] at hcopied
  exact hcopied

end ModuleImage

end Postmortem
