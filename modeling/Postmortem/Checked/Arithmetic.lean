import Postmortem.Image.Basic

/-!
# Checked arithmetic

In the readers of images an offset is a natural number, and a number of fixed width wraps around, as
it does in a release build. A debug build checks its arithmetic, and stops as soon as a result does
not fit; its offsets have 64 bits. A checked computation gives nothing then.
-/
namespace Postmortem.Checked

/-- An offset that was added or multiplied together. Offsets do not get smaller on the way, so it
fits only if all sums before it do. -/
def offset (n : Nat) : Option Nat := if n ≤ maxOffset then some n else none

def add64 (a b : UInt64) : Option UInt64 :=
  if a.toNat + b.toNat < UInt64.size then some (a + b) else none

def sub64 (a b : UInt64) : Option UInt64 := if b ≤ a then some (a - b) else none

def sub32 (a b : UInt32) : Option UInt32 := if b ≤ a then some (a - b) else none

/-- One less than a 16-bit number. -/
def pred16 (a : Int16) : Option Int16 := if Int16.minValue < a then some (a - 1) else none

/-- A reader in checked arithmetic, which refuses an image as the other readers do. -/
abbrev Reader (α : Type) : Type := ExceptT ImageError Option α

end Postmortem.Checked
