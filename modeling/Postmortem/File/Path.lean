/-!
# File paths

A path is text in which slashes separate names. Empty names and dots between slashes say nothing,
so two paths may be equal without being spelled alike.
-/
namespace Postmortem.Path

/-- The names of a path, with the empty ones. -/
def names (path : String) : List String :=
  (path.toList.splitOn '/').map String.ofList

def isAbsolute (path : String) : Bool := path.toList.head? = some '/'

/-- Whether a name of a path leads anywhere. -/
def isStep (name : String) : Bool := name ≠ "" && name ≠ "."

/-- What a path means: whether it starts at the root, whether it starts with a dot, and its
steps. Paths that mean the same are equal. -/
structure Meaning where
  isAbsolute : Bool
  startsWithDot : Bool
  steps : List String
  deriving DecidableEq, Repr

def meaning (path : String) : Meaning where
  isAbsolute := isAbsolute path
  startsWithDot := (names path).head? = some "."
  steps := (names path).filter isStep

/-- The last part of a path of any system, after the last backslash, slash or colon. -/
def baseName (path : String) : String :=
  String.ofList (path.toList.reverse.takeWhile fun c => c ≠ '\\' ∧ c ≠ '/' ∧ c ≠ ':').reverse

end Postmortem.Path
