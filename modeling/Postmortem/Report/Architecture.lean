import Postmortem.Text.Hex

/-!
# Addresses as they are written
-/
namespace Postmortem

/-- The kind of processor that a process runs on. -/
inductive Architecture where
  | x86
  | x64
  | arm64
  deriving DecidableEq, Repr

namespace Architecture

/-- How many digits an address has. -/
def addressDigits : Architecture → Nat
  | x86 => 8
  | x64 | arm64 => 16

/-- The part of a number that is an address. -/
def mask : Architecture → UInt64 → UInt64
  | x86, a => a &&& 0xffffffff
  | x64, a | arm64, a => a

/-- An address with all its digits, in upper case. -/
def formatAddress (arch : Architecture) (a : UInt64) : String :=
  Text.hexPaddedUpper arch.addressDigits (arch.mask a).toNat

end Architecture

end Postmortem
