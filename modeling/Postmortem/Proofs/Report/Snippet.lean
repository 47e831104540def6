import Postmortem.Proofs.Text.Encoding
import Postmortem.Report.Source

/-!
# What a snippet shows

A snippet is one line of text for every line of the file around the target, cut off at both ends of
the file and of the numbers. Each has its number and what is visible of the line, and only the
target is marked.
-/
namespace Postmortem.Report

open Text

/-! ## Lines of a file -/

/-- Whether bytes consist of the given lines: each ends with a newline, but the last one need not if
it has any bytes. -/
inductive AreLines : List UInt8 → List (List UInt8) → Prop
  | none : AreLines [] []
  | last {line : List UInt8} : line ≠ [] → 0x0A ∉ line → AreLines line [line]
  | line {line rest : List UInt8} {others : List (List UInt8)} : 0x0A ∉ line →
    AreLines rest others → AreLines (line ++ 0x0A :: rest) (line :: others)

/-- What is between newlines, without an empty rest at the end. -/
def linesOf (bytes : List UInt8) : List (List UInt8) :=
  let runs := bytes.splitOn 0x0A
  if runs.getLast? = some [] then runs.dropLast else runs

theorem lines_eq (data : Bytes) : lines data = linesOf data.toList := rfl

theorem splitOn_of_notMem {line : List UInt8} (h : 0x0A ∉ line) : line.splitOn 0x0A = [line] := by
  refine List.splitOnP_eq_singleton fun b hb => beq_eq_false_iff_ne.mpr ?_
  rintro rfl
  exact h hb

theorem splitOn_append {line : List UInt8} (h : 0x0A ∉ line) (rest : List UInt8) :
    (line ++ 0x0A :: rest).splitOn 0x0A = line :: rest.splitOn 0x0A := by
  refine List.splitOnP_append_cons_of_forall_mem (fun b hb => beq_eq_false_iff_ne.mpr ?_) _
    (by simp) rest
  rintro rfl
  exact h hb

theorem linesOf_last {line : List UInt8} (hne : line ≠ []) (h : 0x0A ∉ line) :
    linesOf line = [line] := by
  rw [linesOf, splitOn_of_notMem h]
  simp [hne]

theorem linesOf_line {line : List UInt8} (h : 0x0A ∉ line) (rest : List UInt8) :
    linesOf (line ++ 0x0A :: rest) = line :: linesOf rest := by
  obtain ⟨run, runs, hruns⟩ := List.exists_cons_of_ne_nil (List.splitOn_ne_nil 0x0A rest)
  rw [linesOf, linesOf, splitOn_append h, hruns]
  simp only [List.getLast?_cons_cons, List.dropLast_cons_cons]
  split_ifs <;> rfl

theorem AreLines.eq_linesOf {bytes : List UInt8} {ls : List (List UInt8)} (h : AreLines bytes ls) :
    ls = linesOf bytes := by
  induction h with
  | none => rfl
  | last hne h => rw [linesOf_last hne h]
  | line h _ ih => rw [linesOf_line h, ih]

theorem areLines_linesOf (bytes : List UInt8) : AreLines bytes (linesOf bytes) := by
  induction hlength : bytes.length using Nat.strongRecOn generalizing bytes with
  | _ n ih =>
    by_cases hmem : 0x0A ∈ bytes
    · obtain ⟨line, rest, rfl, hline⟩ := List.eq_append_cons_of_mem hmem
      rw [linesOf_line hline]
      refine .line hline (ih rest.length ?_ rest rfl)
      rw [← hlength, List.length_append, List.length_cons]
      omega
    · by_cases hnil : bytes = []
      · subst hnil
        exact .none
      · rw [linesOf_last hnil hmem]
        exact .last hnil hmem

/-! ## A line of a snippet -/

/-- Whether a line of a snippet begins with the mark. -/
def isMarked (text : String) : Bool := text.toList.head? = some '>'

/-- What is visible of a line: spaces and the printable characters of ASCII. -/
def visible (line : List UInt8) : List Char :=
  (line.map asciiChar).filter fun c => ' ' ≤ c ∧ c ≤ '~'

/-- Whether a text shows a line with its number, which ends at the sixth place or, if it is longer,
begins at the first one that is free. -/
structure ShowsLine (target number : Nat) (line : List UInt8) (text : String) : Prop where
  parts : ∃ mark blanks : List Char,
    text.toList = mark ++ blanks ++ Nat.toDigits 10 number ++ [':', ' '] ++ visible line ++ ['\n'] ∧
      mark = (if number = target then ['>'] else []) ∧ (∀ c ∈ blanks, c = ' ') ∧
      (mark ++ blanks ++ Nat.toDigits 10 number).length =
        max 6 (mark ++ Nat.toDigits 10 number).length
  isMarked_iff : isMarked text = true ↔ number = target
  newlines : text.toList.count '\n' = 1

theorem isShown_eq (b : UInt8) : isShown b = decide (' ' ≤ asciiChar b ∧ asciiChar b ≤ '~') := by
  have hchar : (asciiChar b).val.toNat = b.toNat := toNat_asciiChar b
  have hlow : 0x20 ≤ b ↔ ' ' ≤ asciiChar b := by
    rw [UInt8.le_iff_toNat_le, Char.le_def, UInt32.le_iff_toNat_le, hchar]
    rfl
  have hhigh : b ≤ 0x7E ↔ asciiChar b ≤ '~' := by
    rw [UInt8.le_iff_toNat_le, Char.le_def, UInt32.le_iff_toNat_le, hchar]
    rfl
  rw [isShown, ← Bool.decide_and]
  exact decide_eq_decide.mpr (and_congr hlow hhigh)

theorem toList_lineText (line : List UInt8) : (lineText line).toList = visible line := by
  rw [lineText, String.toList_ofList, visible, List.filter_map,
    List.filter_congr fun b _ => isShown_eq b]
  rfl

theorem newline_notMem_visible (line : List UInt8) : '\n' ∉ visible line := by
  intro h
  have hvisible := (List.mem_filter.mp h).2
  revert hvisible
  decide

theorem newline_notMem_toDigits (n : Nat) : '\n' ∉ Nat.toDigits 10 n := fun h =>
  absurd (Nat.isDigit_of_mem_toDigits (by decide) (by decide) h) (by decide)

theorem mark_notMem_toDigits (n : Nat) : '>' ∉ Nat.toDigits 10 n := fun h =>
  absurd (Nat.isDigit_of_mem_toDigits (by decide) (by decide) h) (by decide)

/-- A text with the parts of a line is one line, and marked just as it should be. -/
theorem ShowsLine.of_parts {target number : Nat} {line : List UInt8} {text : String}
    {mark blanks : List Char}
    (htext : text.toList =
      mark ++ blanks ++ Nat.toDigits 10 number ++ [':', ' '] ++ visible line ++ ['\n'])
    (hmark : mark = if number = target then ['>'] else []) (hblanks : ∀ c ∈ blanks, c = ' ')
    (hwidth : (mark ++ blanks ++ Nat.toDigits 10 number).length =
      max 6 (mark ++ Nat.toDigits 10 number).length) :
    ShowsLine target number line text := by
  have hnewline : '\n' ∉
      mark ++ blanks ++ Nat.toDigits 10 number ++ [':', ' '] ++ visible line := by
    simp only [List.mem_append, not_or]
    refine ⟨⟨⟨⟨?_, fun h => absurd (hblanks _ h) (by decide)⟩, newline_notMem_toDigits number⟩,
      by decide⟩, newline_notMem_visible line⟩
    rw [hmark]
    split_ifs <;> decide
  refine ⟨⟨mark, blanks, htext, hmark, hblanks, hwidth⟩, ?_, ?_⟩
  · rw [isMarked, htext, decide_eq_true_eq]
    by_cases htarget : number = target
    · rw [hmark, if_pos htarget]
      exact iff_of_true rfl htarget
    · -- The first character is a blank or a digit.
      refine iff_of_false (fun hhead => ?_) htarget
      rw [hmark, if_neg htarget, List.nil_append, List.append_assoc, List.append_assoc,
        List.head?_append_of_ne_nil _ (by simp [Nat.toDigits_ne_nil])] at hhead
      obtain hblank | hdigit := List.mem_append.mp (List.mem_of_mem_head? hhead)
      · exact absurd (hblanks _ hblank) (by decide)
      · exact mark_notMem_toDigits number hdigit
  · rw [htext, List.count_append, List.count_eq_zero.mpr hnewline]
    rfl

theorem toList_padLeft (width n : Nat) :
    (padLeft width ' ' (toString n)).toList =
      List.replicate (width - (Nat.toDigits 10 n).length) ' ' ++ Nat.toDigits 10 n := by
  rw [padLeft, String.toList_append, String.toList_ofList, Nat.toString_eq_repr,
    Nat.repr_eq_ofList_toDigits, String.toList_ofList, String.length_ofList]

theorem toList_snippetLine (target number : Nat) (line : List UInt8) :
    (snippetLine target number line).toList =
      (if number = target then ['>'] else []) ++
        List.replicate ((if number = target then 5 else 6) - (Nat.toDigits 10 number).length) ' ' ++
        Nat.toDigits 10 number ++ [':', ' '] ++ visible line ++ ['\n'] := by
  have hcolon : ": ".toList = [':', ' '] := rfl
  have hmark : ">".toList = ['>'] := rfl
  have hnewline : "\n".toList = ['\n'] := rfl
  unfold snippetLine
  split_ifs <;> simp only [String.toList_append, toList_padLeft, toList_lineText, hcolon, hmark,
    hnewline, List.append_assoc, List.nil_append]

theorem snippetLine_showsLine (target number : Nat) (line : List UInt8) :
    ShowsLine target number line (snippetLine target number line) := by
  refine .of_parts (toList_snippetLine target number line) rfl
    (fun c => List.eq_of_mem_replicate) ?_
  simp only [List.length_append, List.length_replicate]
  split_ifs
  · rw [List.length_singleton]
    omega
  · rw [List.length_nil]
    omega

/-! ## The window -/

/-- The items of a list with their numbers from `k` on, of those that have the numbers from `first`
to `last`. -/
theorem filterMap_zipIdx {α β : Type} (f : Nat → α → β) (first last : Nat) (l : List α) (k : Nat) :
    ((l.zipIdx k).filterMap fun (a, n) => if first ≤ n ∧ n ≤ last then some (f n a) else none) =
      ((l.take (last + 1 - k)).drop (first - k)).mapIdx fun i a => f (max first k + i) a := by
  induction l generalizing k with
  | nil => simp
  | cons a l ih =>
    rw [List.zipIdx_cons]
    by_cases hlast : last < k
    · have hnone : last + 1 - k = 0 := Nat.sub_eq_zero_of_le hlast
      have hnext : last + 1 - (k + 1) = 0 := Nat.sub_eq_zero_of_le (Nat.le_succ_of_le hlast)
      rw [List.filterMap_cons_none, ih, hnone, hnext]
      · simp
      · exact if_neg (by omega)
    · have htake : last + 1 - k = (last + 1 - (k + 1)) + 1 := by omega
      rw [htake, List.take_succ_cons]
      by_cases hfirst : first ≤ k
      · rw [List.filterMap_cons_some, ih, Nat.sub_eq_zero_of_le hfirst,
          Nat.sub_eq_zero_of_le (Nat.le_succ_of_le hfirst), List.drop_zero, List.drop_zero,
          List.mapIdx_cons, Nat.max_eq_right hfirst, Nat.max_eq_right (Nat.le_succ_of_le hfirst),
          Nat.add_zero]
        · congr 2
          funext i b
          rw [Nat.succ_add_eq_add_succ]
        · exact if_pos ⟨hfirst, Nat.le_of_not_lt hlast⟩
      · have hdrop : first - k = (first - (k + 1)) + 1 := by omega
        rw [List.filterMap_cons_none, ih, hdrop, List.drop_succ_cons, Nat.max_eq_left (by omega),
          Nat.max_eq_left (by omega)]
        exact if_neg (by omega)

/-- The number of the first line around a target, and that of the last one in a file. -/
def firstShown (target context : Nat) : Nat := max 1 (target - context)

def lastShown (target context count : Nat) : Nat := min count (target + context)

/-- Whether texts show the lines of a file around a target, one each. -/
structure ShowsWindow (target context : Nat) (ls : List (List UInt8)) (texts : List String) :
    Prop where
  length_eq : texts.length = lastShown target context ls.length + 1 - firstShown target context
  /-- They come in the order of their numbers, the first of which is one. -/
  showsLine : ∀ i text, texts[i]? = some text →
    ∃ line, ls[firstShown target context + i - 1]? = some line ∧
      ShowsLine target (firstShown target context + i) line text
  /-- The target is among them if the file has it. -/
  target_shown : 1 ≤ target → target ≤ ls.length →
    ∃ i text, texts[i]? = some text ∧ firstShown target context + i = target ∧ isMarked text = true
  /-- If it does not, no line is marked. -/
  unmarked : target = 0 ∨ ls.length < target → ∀ text ∈ texts, isMarked text = false

/-- The texts of the lines around a target. -/
def windowTexts (target context : Nat) (ls : List (List UInt8)) : List String :=
  ((ls.take (target + context)).drop (firstShown target context - 1)).mapIdx fun i line =>
    snippetLine target (firstShown target context + i) line

theorem snippetOf_eq (data : Bytes) (target context : UInt32)
    (hcount : (linesOf data.toList).length < UInt32.size - 1) :
    snippetOf data target context =
      String.join (windowTexts target.toNat context.toNat (linesOf data.toList)) := by
  have htake : (linesOf data.toList).take (min (target.toNat + context.toNat) (UInt32.size - 1)) =
      (linesOf data.toList).take (target.toNat + context.toNat) := by
    rw [List.take_eq_take_iff]
    omega
  have hfirst : max (max (target.toNat - context.toNat) 1) 1 =
      firstShown target.toNat context.toNat := by
    rw [firstShown]
    omega
  have hstart : max (target.toNat - context.toNat) 1 = firstShown target.toNat context.toNat :=
    Nat.max_comm ..
  rw [snippetOf, lines_eq, windowTexts]
  dsimp only
  rw [filterMap_zipIdx, Nat.add_sub_cancel, htake, hfirst, hstart]

theorem windowTexts_showsWindow (target context : Nat) (ls : List (List UInt8)) :
    ShowsWindow target context ls (windowTexts target context ls) := by
  have hfirst : 1 ≤ firstShown target context := Nat.le_max_left ..
  have hget : ∀ i, (windowTexts target context ls)[i]? =
      if firstShown target context + i ≤ target + context then
        ls[firstShown target context + i - 1]?.map fun line =>
          snippetLine target (firstShown target context + i) line
      else none := by
    intro i
    rw [windowTexts, List.getElem?_mapIdx, List.getElem?_drop, List.getElem?_take]
    have hplace : firstShown target context - 1 + i = firstShown target context + i - 1 := by omega
    rw [hplace]
    split_ifs with h₁ h₂ h₂
    · rfl
    · omega
    · omega
    · rfl
  refine ⟨?_, ?_, ?_, ?_⟩
  · rw [windowTexts, List.length_mapIdx, List.length_drop, List.length_take, lastShown,
      Nat.min_comm]
    omega
  · intro i text htext
    rw [hget] at htext
    split_ifs at htext
    obtain ⟨line, hline, rfl⟩ := Option.map_eq_some_iff.mp htext
    exact ⟨line, hline, snippetLine_showsLine ..⟩
  · intro hpos hle
    have hin : firstShown target context ≤ target := by
      rw [firstShown]
      omega
    have hplace : firstShown target context + (target - firstShown target context) = target := by
      omega
    have hline : ls[target - 1]? = some ls[target - 1] := List.getElem?_eq_getElem (by omega)
    refine ⟨target - firstShown target context, _, ?_, hplace,
      (snippetLine_showsLine target target ls[target - 1]).isMarked_iff.mpr rfl⟩
    rw [hget, hplace, if_pos (Nat.le_add_right ..), hline, Option.map_some]
  · intro hout text hmem
    obtain ⟨i, hi⟩ := List.getElem?_of_mem hmem
    rw [hget] at hi
    split_ifs at hi
    obtain ⟨line, hline, rfl⟩ := Option.map_eq_some_iff.mp hi
    have hlt := (List.getElem?_eq_some_iff.mp hline).1
    rw [Bool.eq_false_iff, Ne, (snippetLine_showsLine ..).isMarked_iff]
    omega

/-- A snippet of a file that can be read shows its lines around the target, and there is none of a
file that cannot be opened. -/
theorem snippet?_showsWindow (files : Files) (path : String) (target context : UInt32) :
    (files.entry? path = none → snippet? files path target context = none) ∧
      ∀ data, files.entry? path = some (.regular data) →
        ∃ ls, (∀ others, AreLines data.toList others ↔ others = ls) ∧
          (ls.length < UInt32.size - 1 → ∃ texts,
            snippet? files path target context = some (String.join texts) ∧
              ShowsWindow target.toNat context.toNat ls texts) := by
  refine ⟨fun hnone => by rw [snippet?, hnone, Option.map_none], fun data hdata => ?_⟩
  refine ⟨linesOf data.toList, fun others => ⟨AreLines.eq_linesOf, ?_⟩, fun hcount => ?_⟩
  · rintro rfl
    exact areLines_linesOf _
  · refine ⟨_, ?_, windowTexts_showsWindow ..⟩
    rw [snippet?, hdata, Option.map_some]
    exact congrArg some (snippetOf_eq data target context hcount)

/-- The sum of the target and the lines after it may have more than 32 bits. -/
theorem twoLines_showsWindow :
    let data := "one\ntwo\n".toUTF8
    let files := ({} : Files).write "a.c" data
    let ls := ["one".toUTF8.toList, "two".toUTF8.toList]
    (files.entry? "a.c" = some (.regular data) ∧ ls.length < UInt32.size - 1) ∧
      ∃ texts, snippet? files "a.c" 2 0xFFFFFFFF = some (String.join texts) ∧
        ShowsWindow 2 0xFFFFFFFF ls texts := by
  intro data files ls
  have hdata : files.entry? "a.c" = some (.regular data) := rfl
  have hlines : AreLines ("one".toUTF8.toList ++ 0x0A :: ("two".toUTF8.toList ++ 0x0A :: [])) ls :=
    .line (by decide +kernel) (.line (by decide +kernel) .none)
  obtain ⟨found, hfound, hshows⟩ := (snippet?_showsWindow files "a.c" 2 0xFFFFFFFF).2 data hdata
  have hbytes : data.toList =
      "one".toUTF8.toList ++ 0x0A :: ("two".toUTF8.toList ++ 0x0A :: []) := by
    decide +kernel
  obtain rfl := (hfound ls).mp (hbytes ▸ hlines)
  exact ⟨⟨hdata, by decide⟩, hshows (by decide)⟩

example :
    snippetOf "a\tb\r\nc\n".toUTF8 2 1 = "     1: ab\n>    2: c\n" := by
  decide +kernel

end Postmortem.Report
