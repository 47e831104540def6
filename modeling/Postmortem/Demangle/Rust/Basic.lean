import Postmortem.Demangle.Rust.Legacy
import Postmortem.Demangle.Rust.V0

/-!
# Readable names of Rust symbols
-/
namespace Postmortem.Demangle.Rust

/-- The part before a mark that a link time optimizer adds: `.llvm.` and a number. Such a mark is
looked for at its first place only. -/
def withoutMark : List Char → List Char
  | [] => []
  | c :: cs =>
    match c :: cs with
    | '.' :: 'l' :: 'l' :: 'v' :: 'm' :: '.' :: number =>
      if number.all fun d => d.isDigit || ('A' ≤ d && d ≤ 'F') || d = '@' then [] else c :: cs
    | _ => c :: withoutMark cs

/-- Whether a character may follow a symbol: a visible ASCII character. -/
def isSuffixChar (c : Char) : Bool := 0x21 ≤ c.toNat && c.toNat ≤ 0x7E

/-- What follows a symbol is kept when it starts with a dot; nothing else may follow. -/
def withSuffix? (name : String) : List Char → Option String
  | [] => some name
  | '.' :: rest =>
    if rest.all isSuffixChar then some (name ++ String.ofList ('.' :: rest)) else none
  | _ => none

/-- The readable name of a symbol of either scheme. -/
def demangle? (style : Style) (symbol : String) : Option String :=
  let cs := withoutMark symbol.toList
  match Legacy.read? cs with
  | some path => withSuffix? (path.text style) path.rest
  | none => do
    let checked ← V0.read? style cs
    withSuffix? checked.text checked.rest

end Postmortem.Demangle.Rust
