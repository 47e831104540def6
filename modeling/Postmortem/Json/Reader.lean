import Postmortem.Text.Hex

/-!
# Reading JSON: words, strings and numbers

JSON is read from left to right, straight into the type that is wanted. A fault is the first thing
found wrong: the text is no JSON, it is JSON of another type, or it ends too early.
-/
namespace Postmortem.Json

open Text

/-- What is wrong with a document. -/
inductive Fault where
  | malformed
  | mismatched
  | incomplete
  deriving DecidableEq, Repr

/-- Reads a part of a document and leaves the rest. -/
abbrev Reader := StateT (List Char) (Except Fault)

namespace Reader

/-- The next character. -/
def peek? : Reader (Option Char) := do return (← get).head?

/-- Takes the next character, of which it is known that there is one. -/
def drop : Reader Unit := modify List.tail

/-- Takes a character; the document may not end here. -/
def next : Reader Char := do
  match ← get with
  | [] => throw .incomplete
  | c :: rest =>
    set rest
    return c

def isBlank (c : Char) : Bool := c = ' ' || c = '\n' || c = '\t' || c = '\r'

/-- Skips blanks and gives the character after them. -/
def peekToken? : Reader (Option Char) := do
  modify (·.dropWhile isBlank)
  peek?

/-- The character after blanks; the document may not end here. -/
def peekToken : Reader Char := do
  match ← peekToken? with
  | some c => return c
  | none => throw .incomplete

/-- Takes a given character after blanks. -/
def expectToken (c : Char) : Reader Unit := do
  if (← peekToken) = c then drop else throw .malformed

/-- Takes the rest of a word of which the first character was taken. -/
def word : List Char → Reader Unit
  | [] => return
  | c :: cs => do
    if (← next) = c then word cs else throw .malformed

/-- Four hexadecimal digits. -/
def hexEscape : Reader Nat := do
  match ← get with
  | a :: b :: c :: d :: rest =>
    set rest
    match hexValue? a, hexValue? b, hexValue? c, hexValue? d with
    | some a, some b, some c, some d => return ((a * 16 + b) * 16 + c) * 16 + d
    | _, _, _, _ => throw .malformed
  | rest => throw (if (String.ofList rest).utf8ByteSize < 4 then .incomplete else .malformed)

/-- The escapes of a single character. -/
def simpleEscape? : Char → Option Char
  | '"' => some '"'
  | '\\' => some '\\'
  | '/' => some '/'
  | 'b' => some '\x08'
  | 'f' => some '\x0c'
  | 'n' => some '\n'
  | 'r' => some '\r'
  | 't' => some '\t'
  | _ => none

/-- Whether a number is the first half, or the second one, of a character outside the first
plane. -/
def isLeading (n : Nat) : Bool := 0xD800 ≤ n && n < 0xDC00

def isTrailing (n : Nat) : Bool := 0xDC00 ≤ n && n < 0xE000

/-- The character that an escape by number stands for. Halves have to come in pairs. -/
def unicodeEscape : Reader Char := do
  let n ← hexEscape
  if isTrailing n then throw .malformed
  if isLeading n then
    unless (← next) = '\\' do throw .malformed
    unless (← next) = 'u' do throw .malformed
    let m ← hexEscape
    if isTrailing m then return Char.ofNat ((n - 0xD800) * 0x400 + (m - 0xDC00) + 0x10000)
    else throw .malformed
  else return Char.ofNat n

/-- The character that an escape stands for, after its backslash. -/
def escape : Reader Char := do
  match ← next with
  | 'u' => unicodeEscape
  | c =>
    match simpleEscape? c with
    | some c => return c
    | none => throw .malformed

/-- Passes over an escape. Whether halves are paired does not matter. -/
def skipEscape : Reader Unit := do
  match ← next with
  | 'u' => discard hexEscape
  | c => if (simpleEscape? c).isSome then return else throw .malformed

/-- The characters up to the closing quote, which is at most `n` steps away. -/
def stringUpTo : Nat → Reader (List Char)
  | 0 => throw .incomplete
  | n + 1 => do
    match ← next with
    | '"' => return []
    | '\\' =>
      let c ← escape
      return c :: (← stringUpTo n)
    | c => if c.toNat < 0x20 then throw .malformed else return c :: (← stringUpTo n)

/-- A string, after its opening quote. -/
def string : Reader String := do
  return String.ofList (← stringUpTo ((← get).length + 1))

/-- Passes over the characters up to the closing quote. -/
def skipStringUpTo : Nat → Reader Unit
  | 0 => throw .incomplete
  | n + 1 => do
    match ← next with
    | '"' => return
    | '\\' =>
      skipEscape
      skipStringUpTo n
    | c => if c.toNat < 0x20 then throw .malformed else skipStringUpTo n

/-- Passes over a string, after its opening quote. -/
def skipString : Reader Unit := do skipStringUpTo ((← get).length + 1)

/-- The digits that come next. -/
def digits : Reader (List Char) := do
  let ds := (← get).takeWhile Char.isDigit
  modify (·.drop ds.length)
  return ds

/-- Takes a character that may be missing. -/
def optional (p : Char → Bool) : Reader (Option Char) := do
  match ← peek? with
  | some c =>
    if p c then
      drop
      return some c
    else return none
  | none => return none

end Reader

end Postmortem.Json
