import Postmortem.File.System
import Postmortem.Text.Hex

/-!
# Source lines around a place

A snippet shows the lines around a given one, with their numbers and a mark at that line. Only
blanks and visible ASCII characters of the file are shown, so a file cannot change how the report
around it looks.
-/
namespace Postmortem.Report

open Text

/-- The lines of a file. A newline at its end starts no further line. -/
def lines (data : Bytes) : List (List UInt8) :=
  let runs := data.toList.splitOn 0x0A
  if runs.getLast? = some [] then runs.dropLast else runs

/-- Whether a byte is shown. -/
def isShown (b : UInt8) : Bool := 0x20 ≤ b && b ≤ 0x7E

/-- The text of a line, without what is not shown. -/
def lineText (line : List UInt8) : String :=
  String.ofList ((line.filter isShown).map fun b => Char.ofNat b.toNat)

/-- A line with its number, marked or not. -/
def snippetLine (target number : Nat) (line : List UInt8) : String :=
  (if number = target then ">" ++ padLeft 5 ' ' (toString number)
    else padLeft 6 ' ' (toString number)) ++
    ": " ++ lineText line ++ "\n"

/-- The lines of a file with at most `context` lines between them and the target. -/
def snippetOf (data : Bytes) (target context : UInt32) : String :=
  let first := max (target.toNat - context.toNat) 1
  let last := min (target.toNat + context.toNat) (UInt32.size - 1)
  String.join (((lines data).zipIdx 1).filterMap fun (line, number) =>
    if first ≤ number ∧ number ≤ last then some (snippetLine target.toNat number line) else none)

/-- The lines around a line of a file, if there is a file. A directory has no lines. -/
def snippet? (files : Files) (path : String) (target context : UInt32) : Option String :=
  (files.entry? path).map fun
    | .regular data => snippetOf data target context
    | .directory => ""

end Postmortem.Report
