import Postmortem.Debug.Cursor
import Postmortem.Image.Error
import Postmortem.Process.Id

/-!
# Why a lookup fails

Failures of reading bytes and of reading an image become failures of the lookup that needed them.
-/
namespace Postmortem

open Text

/-- Why the bytes of an image cannot be had. -/
inductive AccessError where
  | tooLarge (limit found : Nat)
  | shortRead (address requested read : Nat)
  | system (cause : String)
  deriving DecidableEq, Repr

namespace AccessError

def message : AccessError → String
  | tooLarge limit found =>
    s!"Image size of {found} bytes exceeds the maximum allowed size of {limit} bytes."
  | shortRead address requested read =>
    s!"Process memory read of {requested} bytes at " ++ hexMarked address ++
      s!" returned only {read}."
  | system cause => "An underlying I/O error occurred: " ++ cause

end AccessError

/-- Why an address cannot be resolved. -/
inductive LookupError where
  | notFound
  | noModule (address : UInt64)
  | unknownProcess (process : ProcessId)
  | badFormat (cause : String)
  | truncated (expected actual : Nat)
  | unreadable (cause : String)
  | badDebugInfo (cause : Debug.DebugError)
  deriving DecidableEq, Repr

namespace LookupError

def message : LookupError → String
  | notFound => "Symbol not found"
  | noModule address => "No module contains address " ++ hexMarked address.toNat
  | unknownProcess process => "Unknown process " ++ process.text
  | badFormat cause => "Bad image format: " ++ cause
  | truncated expected actual => s!"Truncated image: expected {expected} bytes, got {actual}"
  | unreadable cause => "I/O error: " ++ cause
  | badDebugInfo cause => "DWARF error: " ++ cause.message

/-- Whether the failure only says that there is nothing at the address. -/
def isNotFound : LookupError → Bool
  | notFound | noModule _ => true
  | _ => false

/-- Whether another source may be asked after this failure. That is always so: a broken image only
yields no symbols. -/
def isRecoverable (_ : LookupError) : Bool := true

def ofImageError : ImageError → LookupError
  | .notFound _ => notFound
  | .truncatedHeader expected actual | .truncatedTable _ expected actual =>
    truncated expected actual
  | .unreadable cause => unreadable cause
  | e => badFormat e.message

def ofAccessError : AccessError → LookupError
  | .system cause => unreadable cause
  | e => unreadable e.message

end LookupError

end Postmortem
