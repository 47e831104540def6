import Postmortem.Text.Hex

/-!
# Processes
-/
namespace Postmortem

/-- A process by its number. -/
structure ProcessId where
  number : UInt64
  deriving DecidableEq, Repr, Hashable

namespace ProcessId

def text (p : ProcessId) : String := Text.hexMarked p.number.toNat

end ProcessId

end Postmortem
