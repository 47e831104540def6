/-!
# How much of a symbol is shown
-/
namespace Postmortem.Demangle

/-- How much a readable name says: the qualified name alone, or all that the symbol encodes. -/
inductive Style where
  | nameOnly
  | complete
  deriving DecidableEq, Repr, Inhabited

end Postmortem.Demangle
