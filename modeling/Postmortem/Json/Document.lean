/-!
# Writing JSON

Documents are written over several lines, each member of an object on its own, two blanks deeper
than the object. There are no empty objects and no lists, and strings need no escapes.
-/
namespace Postmortem.Json

/-- What is written. -/
inductive Document where
  | bool (b : Bool)
  | number (n : Nat)
  | text (s : String)
  | object (members : List (String × Document))

namespace Document

def quoted (s : String) : String := "\"" ++ s ++ "\""

/-- A new line that is indented by so many levels. -/
def newLine (depth : Nat) : String := "\n" ++ String.join (List.replicate depth "  ")

mutual

/-- The text of a document whose lines are indented by so many levels. -/
def pretty (depth : Nat) : Document → String
  | bool b => if b then "true" else "false"
  | number n => toString n
  | text s => quoted s
  | object members =>
    "\x7b" ++ ",".intercalate (prettyMembers (depth + 1) members) ++ newLine depth ++ "\x7d"

/-- The lines of the members of an object. -/
def prettyMembers (depth : Nat) : List (String × Document) → List String
  | [] => []
  | (name, value) :: rest =>
    (newLine depth ++ quoted name ++ ": " ++ pretty depth value) :: prettyMembers depth rest

end

end Document

end Postmortem.Json
