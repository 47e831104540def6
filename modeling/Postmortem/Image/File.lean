import Postmortem.File.System
import Postmortem.Image.Basic

/-!
# Images in files
-/
namespace Postmortem.Image

/-- Reads the image in a file of at most `limit` bytes. A path that leads to no regular file counts
as an image that is not there. The image keeps the bytes that are in the file now. They are mapped,
so this is so as long as the file is only replaced by another or removed, and not written over. -/
def openFile (files : Files) (path : String) (limit : Nat) : Except ImageError Image :=
  match files.read path limit with
  | .ok data => parse data {} (some path)
  | .error (.system cause) =>
    if files.isRegular path then .error (.unreadable (AccessError.system cause).message)
    else .error (.notFound path)
  | .error e => .error (.unreadable e.message)

/-- Reads the image in a file that was opened before, whose path is not known any more. -/
def ofOpenFile (data : Except AccessError Bytes) : Except ImageError Image :=
  match data with
  | .ok data => parse data {} none
  | .error e => .error (.unreadable e.message)

end Postmortem.Image
