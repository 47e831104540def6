import Postmortem.Json.Value

/-!
# Reading JSON: values of a type

A value of another type than the wanted one is at fault as soon as its first word is seen to be
sound. A record is written as an object or as the list of its fields. Fields that are missing keep
the value that they have, and members with other names are passed over.
-/
namespace Postmortem.Json.Reader

/-- Reads the first word of a value that is not of the wanted type, and refuses it. -/
def mismatch {α : Type} : Reader α := do
  match ← peekToken with
  | 'n' => word "null".toList
  | 't' => word "true".toList
  | 'f' => word "false".toList
  | '"' =>
    drop
    discard string
  | '[' | '\x7b' => pure ()
  | '-' =>
    drop
    discard (number false)
  | c => if c.isDigit then discard (number true) else throw .malformed
  throw .mismatched

def bool : Reader Bool := do
  match ← peekToken with
  | 't' =>
    word "true".toList
    return true
  | 'f' =>
    word "false".toList
    return false
  | _ => mismatch

/-- A natural number below `limit`. -/
def natural (limit : Nat) : Reader Nat := do
  let c ← peekToken
  if c.isDigit then
    match ← number true with
    | some n => if n < limit then return n else throw .mismatched
    | none => throw .mismatched
  else mismatch

def null : Reader Unit := do
  if (← peekToken) = 'n' then word "null".toList else mismatch

/-- A string; anything else is of another type. -/
def stringValue : Reader String := do
  if (← peekToken) = '"' then
    drop
    string
  else mismatch

/-- One of the choices with the given names: the name, or an object of the name and null. -/
def choice {α : Type} (choices : List (String × α)) : Reader α := do
  let named (name : String) : Reader α :=
    match choices.lookup name with
    | some a => return a
    | none => throw .mismatched
  match ← peekToken with
  | '"' => named (← stringValue)
  | '\x7b' =>
    drop
    let a ← named (← stringValue)
    expectToken ':'
    null
    expectToken '\x7d'
    return a
  | _ => throw .malformed

/-- A field of a record: its name, and how its value is read into the record. -/
structure RecordField (σ : Type) where
  name : String
  read : σ → Reader σ

/-- A field with a value of its own type. -/
def RecordField.of {σ α : Type} (name : String) (read : Reader α) (put : σ → α → σ) :
    RecordField σ :=
  ⟨name, fun s => do return put s (← read)⟩

variable {σ : Type}

/-- Reads the value of the member with the given name. No field may come twice. -/
def member (fields : List (RecordField σ)) (seen : List String) (s : σ) (name : String) :
    Reader (List String × σ) := do
  match fields.find? (·.name = name) with
  | some field =>
    if seen.contains name then throw .mismatched
    expectToken ':'
    return (name :: seen, ← field.read s)
  | none =>
    expectToken ':'
    skipValue
    return (seen, s)

/-- Reads at most `n` members of an object, up to its closing brace. -/
def members (fields : List (RecordField σ)) :
    Nat → (isFirst : Bool) → (seen : List String) → σ → Reader σ
  | 0, _, _, _ => throw .malformed
  | n + 1, isFirst, seen, s => do
    let c ← peekToken
    if c = '\x7d' then
      drop
      return s
    unless isFirst do
      unless c = ',' do throw .malformed
      drop
    expectToken '"'
    let (seen, s) ← member fields seen s (← string)
    members fields n false seen s

/-- Reads the items of a list into the fields, in their order. -/
def items : List (RecordField σ) → (isFirst : Bool) → σ → Reader σ
  | [], _, s => do
    expectToken ']'
    return s
  | field :: fields, isFirst, s => do
    let c ← peekToken
    if c = ']' then
      drop
      return s
    unless isFirst do
      unless c = ',' do throw .malformed
      drop
      if (← peekToken) = ']' then throw .malformed
    items fields false (← field.read s)

/-- Reads a record. Fields that do not come keep the value they have in `s`. -/
def record (fields : List (RecordField σ)) (s : σ) : Reader σ := do
  match ← peekToken with
  | '[' =>
    drop
    items fields true s
  | '\x7b' =>
    drop
    members fields ((← get).length + 1) true [] s
  | _ => mismatch

/-- Reads a whole document. -/
def document (read : Reader σ) (text : String) : Except Fault σ := do
  let (s, rest) ← read.run text.toList
  match rest.dropWhile isBlank with
  | [] => .ok s
  | _ => .error .malformed

end Postmortem.Json.Reader
