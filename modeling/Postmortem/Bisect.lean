/-!
# Search by halving

A table in order is searched by halving the range that can still hold the answer. The number of
steps depends on the size alone: a hit does not end the search early, and the probe moves right
unless the entry there lies after the target. On a table that is out of order the answer is still
determined, by the same steps.
-/
namespace Postmortem

/-- The last probe of a search over `size` entries from `base`, for a target that `after` tells
to lie before an entry. -/
def bisectProbe (after : Nat → Bool) (base size : Nat) : Nat :=
  if 1 < size then
    let half := size / 2
    bisectProbe after (if after (base + half) then base else base + half) (size - half)
  else base
termination_by size

/-- The index of an entry that compares equal to the target, where `compare i` places entry `i`
before, at or after the target. -/
def bisectFind? (size : Nat) (compare : Nat → Ordering) : Option Nat :=
  if size = 0 then none
  else
    let i := bisectProbe (fun i => compare i == .gt) 0 size
    if compare i == .eq then some i else none

/-- The number of leading entries with `holds`, in a table where those with it come first. -/
def partitionPoint (size : Nat) (holds : Nat → Bool) : Nat :=
  if size = 0 then 0
  else
    let i := bisectProbe (fun i => !holds i) 0 size
    if holds i then i + 1 else i

end Postmortem
