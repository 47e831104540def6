import Postmortem.Demangle.Style

/-!
# Settings

What a symbolizer and its reports can be set to, and what they are set to by default.
-/
namespace Postmortem

/-- Settings of reading images. -/
structure ImageConfig where
  /-- The size of the largest image that is read. -/
  maxImageSize : UInt64 := 1073741824
  deriving DecidableEq, Repr, Inhabited

/-- Settings of reports. -/
structure RenderConfig where
  /-- How many lines are shown before and after a source line. -/
  sourceContextLines : UInt32 := 2
  /-- Whether source lines are shown at all. -/
  showSource : Bool := true
  /-- Whether a return address is looked up as the address before it. -/
  nudgeReturnAddresses : Bool := true
  deriving DecidableEq, Repr, Inhabited

structure Config where
  /-- Whether names are shown in readable form. -/
  demangle : Bool := true
  demangleStyle : Demangle.Style := .nameOnly
  images : ImageConfig := {}
  render : RenderConfig := {}
  deriving DecidableEq, Repr, Inhabited

end Postmortem
