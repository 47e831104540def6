import Postmortem.Demangle.Style
import Postmortem.Text.Hex
import Postmortem.Text.Numeral

/-!
# Rust symbols of the older scheme

Such a symbol is `_ZN`, the elements of a path, each after its length in decimal, and `E`. The last
element is usually a hash, which a short name leaves out. Characters that a linker may not accept
are escaped inside an element, between dollar signs or as dots.
-/
namespace Postmortem.Demangle.Rust.Legacy

open Text

/-- A path and what follows its closing `E`. -/
structure Path where
  elements : List (List Char)
  rest : List Char
  deriving DecidableEq, Repr

/-- One element, and what follows it. -/
def element? (cs : List Char) : Option (List Char × List Char) := do
  let length ← decimal? (cs.takeWhile Char.isDigit)
  let body := cs.dropWhile Char.isDigit
  if length ≤ body.length then some (body.take length, body.drop length) else none

theorem length_lt_of_element? {cs : List Char} {e : List Char × List Char}
    (h : element? cs = some e) : e.2.length < cs.length := by
  simp only [element?, bind, Option.bind] at h
  split at h
  · simp at h
  · rename_i length hlength
    dsimp only at h
    split at h
    · obtain rfl := Option.some.inj h
      have hsplit : (cs.takeWhile Char.isDigit).length + (cs.dropWhile Char.isDigit).length =
          cs.length := by
        rw [← List.length_append, List.takeWhile_append_dropWhile]
      have hpos : 0 < (cs.takeWhile Char.isDigit).length := by
        cases hd : cs.takeWhile Char.isDigit with
        | nil => simp [hd, decimal?] at hlength
        | cons => simp
      simp only [List.length_drop]
      omega
    · simp at h

/-- The elements up to the closing `E`. -/
def path? (cs : List Char) : Option Path :=
  match cs with
  | 'E' :: rest => some ⟨[], rest⟩
  | cs =>
    match h : element? cs with
    | none => none
    | some e =>
      have := length_lt_of_element? h
      (path? e.2).map fun p => { p with elements := e.1 :: p.elements }
termination_by cs.length

/-- Reads a symbol, which has to be ASCII after its first three characters. -/
def read? : List Char → Option Path
  | '_' :: 'Z' :: 'N' :: inner => if inner.all (·.toNat < 128) then path? inner else none
  | _ => none

/-- Escapes with a name of their own. -/
def namedEscapes : List (List Char × Char) :=
  [(['S', 'P'], '@'), (['B', 'P'], '*'), (['R', 'F'], '&'), (['L', 'T'], '<'), (['G', 'T'], '>'),
   (['L', 'P'], '('), (['R', 'P'], ')'), (['C'], ',')]

/-- Whether a character has no printed form. -/
def isControl (c : Char) : Bool := c.toNat < 0x20 || (0x7F ≤ c.toNat && c.toNat < 0xA0)

/-- Lower case hexadecimal digits. -/
def isLowerHex (c : Char) : Bool := c.isDigit || ('a' ≤ c && c ≤ 'f')

/-- The character that an escape stands for: a named one, or `u` and the number of a character. -/
def escaped? (name : List Char) : Option Char :=
  match namedEscapes.lookup name with
  | some c => some c
  | none =>
    match name with
    | 'u' :: d :: ds =>
      if (d :: ds).all isLowerHex then
        let n := (d :: ds).foldl (fun n c => n * 16 + (hexValue? c).getD 0) 0
        if h : n.isValidChar then
          let c := Char.ofNatAux n h
          if isControl c then none else some c
        else none
      else none
    | _ => none

/-- Resolves escapes. Two dots stand for `::`. From the first dollar sign that starts no escape on,
everything is left as it is. -/
def unescape (cs : List Char) : List Char :=
  match cs with
  | [] => []
  | '.' :: '.' :: rest => ':' :: ':' :: unescape rest
  | '$' :: rest =>
    if (rest.dropWhile (· ≠ '$')).isEmpty then '$' :: rest
    else
      match escaped? (rest.takeWhile (· ≠ '$')) with
      | some c => c :: unescape (rest.dropWhile (· ≠ '$')).tail
      | none => '$' :: rest
  | c :: rest => c :: unescape rest
termination_by cs.length
decreasing_by
  · simp only [List.length_cons]
    omega
  · have := (List.dropWhile_suffix (l := rest) (· ≠ '$')).length_le
    simp only [List.length_tail, List.length_cons]
    omega
  · simp

/-- The text of an element. An underscore that keeps an escape from coming first is dropped. -/
def elementText : List Char → List Char
  | '_' :: '$' :: rest => unescape ('$' :: rest)
  | cs => unescape cs

/-- Whether an element is a hash. -/
def isHash : List Char → Bool
  | 'h' :: digits => digits.all fun c => (hexValue? c).isSome
  | _ => false

namespace Path

/-- The elements that are shown. -/
def shown (p : Path) : Style → List (List Char)
  | .complete => p.elements
  | .nameOnly =>
    match p.elements.getLast? with
    | some last => if isHash last then p.elements.dropLast else p.elements
    | none => []

/-- The readable name. -/
def text (p : Path) (style : Style) : String :=
  "::".intercalate ((p.shown style).map fun e => String.ofList (elementText e))

end Path

end Postmortem.Demangle.Rust.Legacy
