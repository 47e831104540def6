import Postmortem.File.Path
import Postmortem.Report.Architecture

/-!
# The list of modules
-/
namespace Postmortem.Report

/-- A module as it is listed. -/
structure ModuleEntry where
  base : UInt64
  size : UInt64
  path : String
  deriving DecidableEq, Repr

/-- The line of a module: its first address, the one after its last, and the name of its file. -/
def moduleLine (arch : Architecture) (m : ModuleEntry) : String :=
  arch.formatAddress m.base ++ "-" ++ arch.formatAddress (m.base + m.size) ++ " " ++
    Path.baseName m.path ++ "\n"

/-- The lines of modules and an empty line; nothing if there are no modules. -/
def modules (arch : Architecture) (entries : List ModuleEntry) : String :=
  String.join (entries.map (moduleLine arch)) ++ if entries.isEmpty then "" else "\n"

end Postmortem.Report
