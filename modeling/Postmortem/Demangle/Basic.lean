import Postmortem.Demangle.Flavor
import Postmortem.Demangle.Itanium.Printer
import Postmortem.Demangle.Microsoft.Printer
import Postmortem.Demangle.Rust.Basic

/-!
# Readable names of symbols
-/
namespace Postmortem

/-- The readable name of a symbol, if it is a mangled one and well formed. -/
def demangle? (style : Demangle.Style) (symbol : String) : Option String :=
  match Demangle.Flavor.ofSymbol symbol with
  | .rust => Demangle.Rust.demangle? style symbol
  | .itanium => Demangle.Itanium.demangle? style symbol
  | .microsoft => Demangle.Microsoft.demangle? style symbol
  | .unknown => none

/-- The readable name of a symbol, or the symbol itself if it has none. -/
def demangleOrKeep (style : Demangle.Style) (symbol : String) : String :=
  (demangle? style symbol).getD symbol

end Postmortem
