import Postmortem.Bytes
import Postmortem.Error
import Postmortem.File.Path
import Postmortem.Table

/-!
# Files

The files that images and source texts are read from: regular files in directories below a root. A
path that starts with a slash is followed from the root, any other one from the current directory.
It is followed name by name, and every name but the last has to lead to a directory.
-/
namespace Postmortem

/-- Where a path leads, as the names on the way from the root. -/
abbrev Location := List String

structure Files where
  regular : Table Location Bytes := ∅
  directories : List Location := []
  /-- The current directory. -/
  current : Location := []

instance : Inhabited Files := ⟨{}⟩

/-- What is found at the end of a path. -/
inductive FileEntry where
  | regular (data : Bytes)
  | directory

namespace Files

/-- Whether there is a directory. The current one is there, and so are those that it is in. -/
def isDirectory (files : Files) (location : Location) : Bool :=
  location.isPrefixOf files.current || files.directories.contains location

/-- Where one more name leads from a directory. Two dots lead back, and at the root nowhere else. -/
def step (location : Location) (name : String) : Location :=
  if name = ".." then location.dropLast
  else if Path.isStep name then location ++ [name]
  else location

/-- Where names lead from a location. -/
def follow? (files : Files) : Location → List String → Option Location
  | location, [] => some location
  | location, name :: rest =>
    if files.isDirectory location then files.follow? (step location name) rest else none

/-- How many bytes a path has that is too long to be followed. -/
def pathLimit : Nat := 4096

/-- Where a path is followed from. -/
def origin (files : Files) (path : String) : Location :=
  if Path.isAbsolute path then [] else files.current

/-- Where a path leads. The empty path and those that are too long lead nowhere. -/
def locate? (files : Files) (path : String) : Option Location :=
  if path.isEmpty || pathLimit ≤ path.utf8ByteSize then none
  else files.follow? (files.origin path) (Path.names path)

/-- What is found at the end of a path. -/
def entry? (files : Files) (path : String) : Option FileEntry := do
  let location ← files.locate? path
  if files.isDirectory location then some .directory
  else (files.regular.get? location).map .regular

def isRegular (files : Files) (path : String) : Bool :=
  match files.entry? path with
  | some (.regular _) => true
  | _ => false

/-- The directories that a location is in. -/
def parents (location : Location) : List Location :=
  ((List.range location.length).drop 1).map location.take

/-- Writes a file and the directories it is in. -/
def write (files : Files) (path : String) (data : Bytes) : Files :=
  let location := files.origin path ++ (Path.meaning path).steps
  { files with
    regular := files.regular.set location data
    directories := files.directories ++ parents location }

/-- Removes a regular file, and tells whether there was one. Its directory stays. -/
def remove (files : Files) (path : String) : Bool × Files :=
  match files.locate? path with
  | some location =>
    if files.isRegular path then (true, { files with regular := files.regular.erase location })
    else (false, files)
  | none => (false, files)

/-- The bytes of a file of at most `limit` bytes. -/
def read (files : Files) (path : String) (limit : Nat) : Except AccessError Bytes :=
  match files.entry? path with
  | some (.regular data) =>
    if data.size ≤ limit then .ok data else .error (.tooLarge limit data.size)
  | some .directory => .error (.system "No such device (os error 19)")
  | none => .error (.system "No such file or directory (os error 2)")

end Files

end Postmortem
