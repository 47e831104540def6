import Postmortem.Text.Hex

/-!
# The kind of a mangled symbol

A symbol tells by its first characters, and for one scheme by its last ones, how it was made. This
cheap test comes before any reading, so plain names are never misread.
-/
namespace Postmortem.Demangle

open Text

/-- How a symbol was made. -/
inductive Flavor where
  | rust
  | itanium
  | microsoft
  | unknown
  deriving DecidableEq, Repr

/-- The length of the hash element at the end of a symbol: `17h`, sixteen digits and `E`. -/
def hashLength : Nat := 20

/-- Whether the characters are a hash element and the end of a path. -/
def isHashElement : List Char → Bool
  | '1' :: '7' :: 'h' :: digits =>
    digits.length = 17 && (digits.take 16).all (fun c => (hexValue? c).isSome) &&
      digits.drop 16 = ['E']
  | _ => false

/-- Whether a symbol ends with a hash element after its first three characters. -/
def endsWithHash (cs : List Char) : Bool :=
  3 + hashLength ≤ cs.length && isHashElement (cs.drop (cs.length - hashLength))

/-- The kind of a symbol. -/
def Flavor.ofSymbol (symbol : String) : Flavor :=
  match symbol.toList with
  | '_' :: 'R' :: _ => .rust
  | '_' :: 'Z' :: 'N' :: rest =>
    if endsWithHash ('_' :: 'Z' :: 'N' :: rest) then .rust else .itanium
  | '_' :: 'Z' :: _ => .itanium
  | '?' :: _ => .microsoft
  | _ => .unknown

end Postmortem.Demangle
