import Std.Data.HashMap
import Postmortem.Debug.Cursor

/-!
# Abbreviations

Every entry of a unit names an abbreviation by its code. The abbreviation says what the entry
describes and lists the names and forms of its attributes.
-/
namespace Postmortem.Debug

/-- The name and the form of one attribute. `constant` is the value of attributes that have no
bytes in the entry itself. -/
structure AttributeSpec where
  name : Nat
  form : Nat
  constant : Option Int
  deriving DecidableEq, Repr

structure Abbreviation where
  code : Nat
  tag : Nat
  specs : List AttributeSpec
  deriving Repr

/-- The form of attributes whose value stands in the abbreviation. -/
def implicitConstForm : Nat := 0x21

namespace AttributeSpec

/-- The next attribute of an abbreviation; a pair of zeros ends the list. -/
def read : Decoder (Option AttributeSpec) := do
  let name ← Decoder.unsigned16
  let form ← Decoder.unsigned16
  if name = 0 then
    if form = 0 then return none else throw .badAbbreviation
  if form = 0 then throw .badAbbreviation
  if form = implicitConstForm then return some ⟨name, form, some (← Decoder.signed)⟩
  return some ⟨name, form, none⟩

/-- The attributes up to the end of the list. -/
def readAll (c : Cursor) : Except DebugError (List AttributeSpec × Cursor) :=
  match read c with
  | .error e => .error e
  | .ok (none, rest) => .ok ([], rest)
  | .ok (some spec, rest) =>
    if rest.remaining < c.remaining then do
      let (specs, stop) ← readAll rest
      return (spec :: specs, stop)
    else .error .badAbbreviation
termination_by c.remaining

end AttributeSpec

namespace Abbreviation

/-- The next abbreviation of a table; code zero ends the table. -/
def read : Decoder (Option Abbreviation) := do
  let code ← Decoder.unsigned
  if code = 0 then return none
  let tag ← Decoder.unsigned16
  if tag = 0 then throw .badAbbreviation
  let children ← Decoder.number 1
  if 1 < children then throw .badAbbreviation
  let specs ← AttributeSpec.readAll
  return some { code, tag, specs }

end Abbreviation

/-- The abbreviations of a unit by their codes. -/
abbrev Abbreviations := Std.HashMap Nat Abbreviation

namespace Abbreviations

/-- Adds the abbreviations from the cursor to the end of the table. No code may occur twice. -/
def readFrom (table : Abbreviations) (c : Cursor) : Except DebugError Abbreviations :=
  match Abbreviation.read c with
  | .error e => .error e
  | .ok (none, _) => .ok table
  | .ok (some a, rest) =>
    if table.contains a.code then .error (.duplicateAbbreviation a.code)
    else if rest.remaining < c.remaining then readFrom (table.insert a.code a) rest
    else .error .badAbbreviation
termination_by c.remaining

/-- The table at an offset of the abbreviation section. -/
def readAt (data : Bytes) (offset : Nat) : Except DebugError Abbreviations := do
  let (_, c) ← Decoder.skip offset (.ofSection data)
  readFrom ∅ c

end Abbreviations

end Postmortem.Debug
