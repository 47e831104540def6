/-!
# Byte buffers

Images, files and memory ranges are all byte buffers. The reads below are what every decoder is
built from: each one answers `none` instead of looking past the end, and offsets are plain natural
numbers, so that no sum of offsets can wrap around into the buffer again.
-/
namespace Postmortem

/-- The bytes of an image, of a file or of a range of process memory. -/
abbrev Bytes := ByteArray

namespace Bytes

/-- A buffer of `n` zero bytes. -/
def zeros (n : Nat) : Bytes :=
  if n = 0 then .empty
  else
    let half := zeros (n / 2)
    if n % 2 = 0 then half ++ half else (half ++ half).push 0

@[simp] theorem size_zeros (n : Nat) : (zeros n).size = n := by
  induction n using Nat.strongRecOn with
  | _ n ih =>
    unfold zeros
    by_cases h : n = 0
    · simp [h]
    · have hhalf := ih (n / 2) (by omega)
      by_cases heven : n % 2 = 0
      · simp only [h, heven, if_true, if_false, ByteArray.size_append, hhalf]
        omega
      · simp only [h, heven, if_false, ByteArray.size_push, ByteArray.size_append, hhalf]
        omega

/-- The buffer with zero bytes after it up to a size of `n`. -/
def padTo (b : Bytes) (n : Nat) : Bytes := b ++ zeros (n - b.size)

/-- The `n` bytes from `offset` on as one number, least significant byte first. -/
def number? (b : Bytes) (offset : Nat) : Nat → Option Nat
  | 0 => some 0
  | n + 1 => do
    let low ← b[offset]?
    let high ← number? b (offset + 1) n
    some (low.toNat + 256 * high)

def u8? (b : Bytes) (offset : Nat) : Option UInt8 := b[offset]?

def u16? (b : Bytes) (offset : Nat) : Option UInt16 := (b.number? offset 2).map UInt16.ofNat

/-- A 16-bit number in two's complement. -/
def i16? (b : Bytes) (offset : Nat) : Option Int16 := (b.u16? offset).map UInt16.toInt16

def u32? (b : Bytes) (offset : Nat) : Option UInt32 := (b.number? offset 4).map UInt32.ofNat

def u64? (b : Bytes) (offset : Nat) : Option UInt64 := (b.number? offset 8).map UInt64.ofNat

/-- The bytes with offsets in `[start, stop)`, when the whole range lies in the buffer. -/
def range? (b : Bytes) (start stop : Nat) : Option Bytes :=
  if start ≤ stop ∧ stop ≤ b.size then some (b.extract start stop) else none

/-- The `length` bytes from `offset` on, when all of them lie in the buffer. -/
def slice? (b : Bytes) (offset length : Nat) : Option Bytes := b.range? offset (offset + length)

/-- The offset of the first zero byte in `[start, stop)`, or `stop` when there is none. -/
def zeroIndex (b : Bytes) (start stop : Nat) : Nat :=
  if start < stop then
    if b[start]? = some 0 then start else zeroIndex b (start + 1) stop
  else stop
termination_by stop - start

/-- The bytes before the first zero byte of the buffer. -/
def beforeZero (b : Bytes) : Bytes := b.extract 0 (b.zeroIndex 0 b.size)

/-- The text at `offset`: it ends at a zero byte, after `limit` bytes or at the end of the buffer,
whichever comes first, and has to be valid UTF-8. -/
def text? (b : Bytes) (offset limit : Nat) : Option String :=
  let stop := min (offset + limit) b.size
  if offset ≤ stop then String.fromUTF8? (b.extract offset (b.zeroIndex offset stop)) else none

/-- The buffer with `part` written over it from `offset` on; what falls past the end is dropped. -/
def overwrite (b : Bytes) (offset : Nat) (part : Bytes) : Bytes :=
  let start := min offset b.size
  let count := min part.size (b.size - start)
  part.copySlice 0 b start count

@[simp] theorem size_overwrite (b : Bytes) (offset : Nat) (part : Bytes) :
    (b.overwrite offset part).size = b.size := by
  have hdata : ∀ bytes : Bytes, bytes.data.size = bytes.size := fun _ => rfl
  simp only [overwrite, ByteArray.copySlice_eq_append, ByteArray.size_append,
    ByteArray.size_extract, hdata]
  omega

end Bytes

end Postmortem
