import Postmortem.Json.Document
import Postmortem.Proofs.Json.Strings
import Postmortem.Proofs.Text.Numeral

/-!
# JSON that was written is read back

A reader takes the text of a value, with any blanks in front, and leaves what stands behind it.
This is shown of each kind of value, and of an object from its members: a reader of records takes
one member after the other into the field of its name.
-/
namespace Postmortem.Json.Reader

open Text

variable {α β σ : Type}

/-! ## Blanks -/

/-- Whether a text consists of blanks only. -/
def Blank (cs : List Char) : Prop := ∀ c ∈ cs, isBlank c = true

@[simp] theorem blank_nil : Blank [] := List.forall_mem_nil _

@[simp] theorem run_peekToken {blanks : List Char} {c : Char} (rest : List Char)
    (hblanks : Blank blanks) (hc : isBlank c = false) :
    peekToken.run (blanks ++ c :: rest) = .ok (c, c :: rest) := by
  have htoken : (blanks ++ c :: rest).dropWhile isBlank = c :: rest := by
    rw [List.dropWhile_append_of_pos hblanks]
    simp [hc]
  simp [peekToken, peekToken?, htoken]

@[simp] theorem run_peekToken_cons {c : Char} (rest : List Char) (hc : isBlank c = false) :
    peekToken.run (c :: rest) = .ok (c, c :: rest) := run_peekToken rest blank_nil hc

@[simp] theorem run_expectToken {blanks : List Char} {c : Char} (rest : List Char)
    (hblanks : Blank blanks) (hc : isBlank c = false) :
    (expectToken c).run (blanks ++ c :: rest) = .ok ((), rest) := by
  simp [expectToken, hblanks, hc]

@[simp] theorem run_expectToken_cons {c : Char} (rest : List Char) (hc : isBlank c = false) :
    (expectToken c).run (c :: rest) = .ok ((), rest) := run_expectToken rest blank_nil hc

/-! ## Values -/

/-- Whether a text cannot go on with a number that ends before it. -/
def Delimits (rest : List Char) : Prop :=
  ∀ c ∈ rest.head?, c.isDigit = false ∧ c ≠ '.' ∧ c ≠ 'e' ∧ c ≠ 'E'

theorem delimits_nil : Delimits [] := by simp [Delimits]

theorem delimits_cons {c : Char} {rest : List Char}
    (h : c.isDigit = false ∧ c ≠ '.' ∧ c ≠ 'e' ∧ c ≠ 'E') : Delimits (c :: rest) := by
  simpa [Delimits] using h

/-- Whether a reader takes a text for `a`, after any blanks and whatever stands behind it. -/
def Reads (read : Reader α) (text : List Char) (a : α) : Prop :=
  ∀ blanks rest, Blank blanks → Delimits rest →
    read.run (blanks ++ (text ++ rest)) = .ok (a, rest)

theorem bool_reads (b : Bool) : Reads bool (if b then "true" else "false").toList b := by
  intro blanks rest hblanks _
  cases b with
  | true =>
    have hword := run_word "true".toList rest
    simp_all [bool, isBlank]
  | false =>
    have hword := run_word "false".toList rest
    simp_all [bool, isBlank]

/-! ### Numbers -/

theorem run_digits {ds rest : List Char} (hds : ∀ c ∈ ds, c.isDigit = true)
    (hrest : ∀ c ∈ rest.head?, c.isDigit = false) : digits.run (ds ++ rest) = .ok (ds, rest) := by
  have htake : (ds ++ rest).takeWhile Char.isDigit = ds := by
    rw [List.takeWhile_append_of_pos hds]
    cases rest <;> simp_all
  simp [digits, htake]

/-- Digits are taken as long as their number fits. -/
theorem significandOf_eq {cs : List Char} {acc n : Nat} (h : decimalFrom? acc cs = some n)
    (hn : n < significandLimit) : acc ≤ n ∧ significandOf acc cs = (n, []) := by
  induction cs generalizing acc with
  | nil => simp_all [decimalFrom?, significandOf]
  | cons c cs ih =>
    obtain ⟨d, hd, hrest⟩ := Option.bind_eq_some_iff.mp h
    obtain ⟨hle, heq⟩ := ih hrest
    have hfits : acc * 10 + d < significandLimit := by omega
    refine ⟨by omega, ?_⟩
    simp [significandOf, hd, hfits, heq]

/-- Only zero is written with a zero in front. -/
theorem eq_nil_of_toDigits {n : Nat} {rest : List Char} (h : Nat.toDigits 10 n = '0' :: rest) :
    rest = [] := by
  induction n using Nat.strongRecOn generalizing rest with
  | _ n ih =>
    by_cases hn : n < 10
    · simp_all [Nat.toDigits_of_lt_base hn]
    · rw [Nat.toDigits_of_base_le (by decide) (by omega)] at h
      cases hfirst : Nat.toDigits 10 (n / 10) with
      | nil => exact absurd hfirst Nat.toDigits_ne_nil
      | cons c cs =>
        simp only [hfirst, List.cons_append, List.cons.injEq] at h
        obtain ⟨rfl, -⟩ := h
        obtain rfl := ih (n / 10) (by omega) hfirst
        have hzero := decimalFrom?_toDigits (n / 10)
        simp [hfirst, decimalFrom?, digitValue?] at hzero
        omega

theorem run_number {n : Nat} {rest : List Char} (hn : n < significandLimit)
    (hrest : Delimits rest) :
    (number true).run (Nat.toDigits 10 n ++ rest) = .ok (some n, rest) := by
  have hdigit : ∀ c ∈ Nat.toDigits 10 n, c.isDigit = true := fun c hc =>
    Nat.isDigit_of_mem_toDigits (by decide) (by decide) hc
  have hvalue := (significandOf_eq (decimalFrom?_toDigits n) hn).2
  have hany : rest.head?.any Char.isDigit = false := by cases rest <;> simp_all [Delimits]
  have hplain : ∀ c ∈ rest.head?, c ≠ '.' ∧ c ≠ 'e' ∧ c ≠ 'E' := fun c hc => (hrest c hc).2
  cases hds : Nat.toDigits 10 n with
  | nil => exact absurd hds Nat.toDigits_ne_nil
  | cons c ds =>
    rw [hds, List.forall_mem_cons] at hdigit
    rw [hds] at hvalue
    have hdigits := run_digits hdigit.2 fun c hc => (hrest c hc).1
    unfold number
    by_cases hc : c = '0'
    · subst hc
      obtain rfl := eq_nil_of_toDigits hds
      simp [hany, hvalue]
      split <;> simp_all
    · simp [hdigit.1, hc, hdigits, hvalue]
      split <;> simp_all

theorem natural_reads {limit n : Nat} (hn : n < limit) (hlimit : limit ≤ significandLimit) :
    Reads (natural limit) (toString n).toList n := by
  intro blanks rest hblanks hrest
  have htext : (toString n).toList = Nat.toDigits 10 n := by
    rw [Nat.toString_eq_repr, Nat.repr_eq_ofList_toDigits, String.toList_ofList]
  have hnumber := run_number (Nat.lt_of_lt_of_le hn hlimit) hrest
  rw [htext]
  cases hds : Nat.toDigits 10 n with
  | nil => exact absurd hds Nat.toDigits_ne_nil
  | cons c ds =>
    have hdigit : c.isDigit = true :=
      Nat.isDigit_of_mem_toDigits (by decide) (by decide) (hds ▸ List.mem_cons_self)
    have hblank : isBlank c = false := by
      simp only [isBlank, Bool.or_eq_false_iff, decide_eq_false_iff_not]
      refine ⟨⟨⟨?_, ?_⟩, ?_⟩, ?_⟩ <;> rintro rfl <;> exact absurd hdigit (by decide)
    rw [hds] at hnumber
    simp_all [natural]

/-! ### Texts -/

/-- Whether a text stands between quotes as it is. -/
def Plain (s : String) : Prop := ∀ c ∈ s.toList, c ≠ '"' ∧ c ≠ '\\' ∧ 0x20 ≤ c.toNat

instance (s : String) : Decidable (Plain s) :=
  List.decidableBAll (fun c => c ≠ '"' ∧ c ≠ '\\' ∧ 0x20 ≤ c.toNat) s.toList

theorem Plain.spells {s : String} (hs : Plain s) : Spells s.toList s :=
  (isString_of_plain hs).spells

theorem choice_reads {choices : List (String × α)} {s : String} {a : α} (hs : Plain s)
    (ha : choices.lookup s = some a) : Reads (choice choices) (Document.quoted s).toList a := by
  intro blanks rest hblanks _
  have hquoted : (Document.quoted s).toList ++ rest = '"' :: (s.toList ++ '"' :: rest) := by
    simp [Document.quoted]
  have hblank : isBlank '"' = false := by decide
  have hvalue : stringValue.run ('"' :: (s.toList ++ '"' :: rest)) = .ok (s, rest) := by
    simp [stringValue, hs.spells rest, hblank]
  rw [hquoted]
  simp [choice, hblanks, hblank, hvalue, ha]

/-! ## Objects -/

variable {fields : List (RecordField σ)} {seen : List String} {s s' : σ} {blanks : List Char}

theorem run_members_end {isFirst : Bool} {n : Nat} (rest : List Char) (hblanks : Blank blanks) :
    (members fields (n + 1) isFirst seen s).run (blanks ++ '\x7d' :: rest) = .ok (s, rest) := by
  have hblank : isBlank '\x7d' = false := by decide
  simp [members, hblanks, hblank]

/-- What stands before the name of a member: a comma, unless the member is the first one. -/
def Separates (isFirst : Bool) (text : List Char) : Prop :=
  if isFirst then Blank text
  else ∃ before after, Blank before ∧ Blank after ∧ text = before ++ ',' :: after

theorem run_members_name {isFirst : Bool} {n : Nat} {separator spelling : List Char}
    {name : String} (rest : List Char) (hseparator : Separates isFirst separator)
    (hname : Spells spelling name) :
    (members fields (n + 1) isFirst seen s).run
        (separator ++ '"' :: (spelling ++ '"' :: rest)) =
      (member fields seen s name >>= fun p => members fields n false p.1 p.2).run rest := by
  have hquote : isBlank '"' = false := by decide
  have hcomma : isBlank ',' = false := by decide
  cases isFirst with
  | true =>
    have hblank : Blank separator := hseparator
    simp [members, hblank, hquote, hname rest]
  | false =>
    obtain ⟨before, after, hbefore, hafter, rfl⟩ := hseparator
    simp [members, hbefore, hafter, hquote, hcomma, hname rest]

/-- A member with the name of a field is read into this field. -/
theorem run_member {field : RecordField σ} {name : String} {before after value rest : List Char}
    (hfield : fields.find? (·.name = name) = some field) (hnew : name ∉ seen)
    (hbefore : Blank before) (hafter : Blank after) (hvalue : Reads (field.read s) value s')
    (hrest : Delimits rest) :
    (member fields seen s name).run (before ++ ':' :: (after ++ (value ++ rest))) =
      .ok ((name :: seen, s'), rest) := by
  have hcolon : isBlank ':' = false := by decide
  have hread := hvalue after rest hafter hrest
  simp [member, hfield, hnew, hbefore, hcolon, hread]

/-! ## Documents -/

/-- Whether a reader takes the text of a document, however far it is indented. -/
def ReadsDocument (read : Reader α) (d : Document) (a : α) : Prop :=
  ∀ depth, Reads read (d.pretty depth).toList a

theorem bool_readsDocument (b : Bool) : ReadsDocument bool (.bool b) b := fun _ => by
  simpa only [Document.pretty] using bool_reads b

theorem natural_readsDocument {limit n : Nat} (hn : n < limit)
    (hlimit : limit ≤ significandLimit) : ReadsDocument (natural limit) (.number n) n :=
  fun _ => by simpa only [Document.pretty] using natural_reads hn hlimit

theorem choice_readsDocument {choices : List (String × α)} {name : String} {a : α}
    (hname : Plain name) (ha : choices.lookup name = some a) :
    ReadsDocument (choice choices) (.text name) a := fun _ => by
  simpa only [Document.pretty] using choice_reads hname ha

/-- The members of an object fill the fields of a record one after the other: each has the name of
a field that was not there before, and a value that this field reads. -/
inductive Fills (fields : List (RecordField σ)) :
    List String → σ → List (String × Document) → σ → Prop
  | nil {seen : List String} {s : σ} : Fills fields seen s [] s
  | cons {seen : List String} {s s' s'' : σ} {name : String} {d : Document}
      {rest : List (String × Document)} (field : RecordField σ)
      (hfield : fields.find? (·.name = name) = some field) (hname : Plain name)
      (hnew : name ∉ seen) (hvalue : ReadsDocument (field.read s) d s')
      (hrest : Fills fields (name :: seen) s' rest s'') :
      Fills fields seen s ((name, d) :: rest) s''

theorem Reads.of_field {name : String} {read : Reader α} {put : σ → α → σ} {text : List Char}
    {a : α} (h : Reads read text a) (s : σ) :
    Reads ((RecordField.of name read put).read s) text (put s a) := by
  intro blanks rest hblanks hrest
  have hvalue := h blanks rest hblanks hrest
  simp [RecordField.of, hvalue]

/-- A member is read into a field that takes its value and nothing else. -/
theorem Fills.field {fields : List (RecordField σ)} {seen : List String} {s s' : σ}
    {name : String} {read : Reader α} {put : σ → α → σ} {d : Document} {a : α}
    {rest : List (String × Document)}
    (hfield : fields.find? (·.name = name) = some (.of name read put)) (hname : Plain name)
    (hnew : name ∉ seen) (hvalue : ReadsDocument read d a)
    (hrest : Fills fields (name :: seen) (put s a) rest s') :
    Fills fields seen s ((name, d) :: rest) s' := by
  exact .cons _ hfield hname hnew (fun depth => (hvalue depth).of_field s) hrest

theorem blank_newLine (depth : Nat) : Blank (Document.newLine depth).toList := by
  have hblank : "  ".toList.all isBlank = true := by decide
  have hlines : "\n".toList.all isBlank = true := by decide
  intro c hc
  rw [Document.newLine, String.toList_append, List.mem_append, String.toList_join,
    List.mem_flatMap] at hc
  obtain hc | ⟨t, ht, hc⟩ := hc
  · exact List.all_eq_true.mp hlines c hc
  · rw [List.eq_of_mem_replicate ht] at hc
    exact List.all_eq_true.mp hblank c hc

theorem intercalate_cons (t : List Char) (ts : List (List Char)) :
    [','].intercalate (t :: ts) = t ++ ts.flatMap (',' :: ·) := by
  induction ts generalizing t with
  | nil => simp
  | cons u ts ih => simp [List.intercalate_cons_cons, ih]

/-- The text of a member, from the new line before it on. -/
def memberText (depth : Nat) (m : String × Document) : List Char :=
  (Document.newLine depth).toList ++
    '"' :: (m.1.toList ++ '"' :: ([] ++ ':' :: ([' '] ++ (m.2.pretty depth).toList)))

theorem map_toList_prettyMembers (depth : Nat) (members : List (String × Document)) :
    (Document.prettyMembers depth members).map String.toList = members.map (memberText depth) := by
  induction members with
  | nil => rfl
  | cons m members ih =>
    obtain ⟨name, d⟩ := m
    have htext : ": ".toList = [':', ' '] := rfl
    simp [Document.prettyMembers, memberText, Document.quoted, htext, ih]

/-- The comma before a member that is not the first one. -/
def comma (isFirst : Bool) : List Char := if isFirst then [] else [',']

/-- A member of a document is read into its field, as the first member or after a comma. -/
theorem run_members_cons {field : RecordField σ} {name : String} {d : Document} {depth n : Nat}
    {isFirst : Bool} {rest : List Char} (hfield : fields.find? (·.name = name) = some field)
    (hname : Plain name) (hnew : name ∉ seen) (hvalue : ReadsDocument (field.read s) d s')
    (hrest : Delimits rest) :
    (members fields (n + 1) isFirst seen s).run
        (comma isFirst ++ memberText depth (name, d) ++ rest) =
      (members fields n false (name :: seen) s').run rest := by
  have hseparates : Separates isFirst (comma isFirst ++ (Document.newLine depth).toList) := by
    cases isFirst with
    | true => simpa [comma, Separates] using blank_newLine depth
    | false => exact ⟨[], _, blank_nil, blank_newLine depth, by simp [comma]⟩
  have hblank : Blank [' '] := by simp [Blank, isBlank]
  have htext : comma isFirst ++ memberText depth (name, d) ++ rest =
      (comma isFirst ++ (Document.newLine depth).toList) ++ '"' :: (name.toList ++ '"' ::
        ([] ++ ':' :: ([' '] ++ ((d.pretty depth).toList ++ rest)))) := by
    simp [memberText]
  rw [htext, run_members_name _ hseparates hname.spells, StateT.run_bind,
    run_member hfield hnew blank_nil hblank (hvalue depth) hrest, ok_bind]

/-- What follows the first member of an object that has `rest` behind it. -/
def furtherText (depth : Nat) (members : List (String × Document)) (rest : List Char) : List Char :=
  members.flatMap (fun m => ',' :: memberText (depth + 1) m) ++
    ((Document.newLine depth).toList ++ '\x7d' :: rest)

theorem delimits_furtherText (depth : Nat) (members : List (String × Document))
    (rest : List Char) : Delimits (furtherText depth members rest) := by
  cases members with
  | nil => simp [furtherText, Document.newLine, Delimits]
  | cons m members => simp [furtherText, Delimits]

theorem Fills.run_members {members : List (String × Document)}
    (h : Fills fields seen s members s') (depth : Nat) (rest : List Char) {n : Nat}
    (hn : (furtherText depth members rest).length < n) :
    (Reader.members fields n false seen s).run (furtherText depth members rest) =
      .ok (s', rest) := by
  induction h generalizing n with
  | nil =>
    obtain ⟨n, rfl⟩ := Nat.exists_eq_succ_of_ne_zero (Nat.ne_of_gt (Nat.zero_lt_of_lt hn))
    exact run_members_end rest (blank_newLine depth)
  | @cons seen s s' s'' name d members field hfield hname hnew hvalue _ ih =>
    obtain ⟨n, rfl⟩ := Nat.exists_eq_succ_of_ne_zero (Nat.ne_of_gt (Nat.zero_lt_of_lt hn))
    have htext : furtherText depth ((name, d) :: members) rest =
        comma false ++ memberText (depth + 1) (name, d) ++ furtherText depth members rest := by
      simp [furtherText, comma]
    have hshorter : (furtherText depth members rest).length < n := by
      simp only [htext, comma, List.length_append, Bool.false_eq_true, if_false,
        List.length_singleton] at hn
      omega
    rw [htext, run_members_cons hfield hname hnew hvalue (delimits_furtherText depth members rest)]
    exact ih hshorter

/-- An object is read as a record when its members fill the fields. -/
theorem record_readsDocument {members : List (String × Document)}
    (h : Fills fields [] s members s') : ReadsDocument (record fields s) (.object members) s' := by
  intro depth blanks rest hblanks _
  have hbrace : isBlank '\x7b' = false := by decide
  have hopening : ∀ text, (record fields s).run (blanks ++ '\x7b' :: text) =
      (Reader.members fields (text.length + 1) true [] s).run text := fun text => by
    simp [record, hblanks, hbrace]
  have htext : ((Document.object members).pretty depth).toList ++ rest =
      '\x7b' :: ([','].intercalate (members.map (memberText (depth + 1))) ++
        ((Document.newLine depth).toList ++ '\x7d' :: rest)) := by
    simp [Document.pretty, map_toList_prettyMembers, String.toList_intercalate]
  rw [htext, hopening]
  cases h with
  | nil => exact run_members_end rest (blank_newLine depth)
  | @cons _ _ s' s'' name d members field hfield hname hnew hvalue hmembers =>
    have hfirst : [','].intercalate (memberText (depth + 1) (name, d) ::
        members.map (memberText (depth + 1))) ++
          ((Document.newLine depth).toList ++ '\x7d' :: rest) =
        comma true ++ memberText (depth + 1) (name, d) ++ furtherText depth members rest := by
      simp [comma, intercalate_cons, furtherText, List.flatMap_map]
    rw [List.map_cons, hfirst, run_members_cons hfield hname hnew hvalue
      (delimits_furtherText depth members rest)]
    exact hmembers.run_members depth rest (by simp [memberText]; omega)

/-- A whole text that is a document is read as what its reader takes it for. -/
theorem document_pretty {read : Reader α} {d : Document} {a : α} (h : ReadsDocument read d a) :
    document read (d.pretty 0) = .ok a := by
  have hread : read.run (d.pretty 0).toList = .ok (a, []) := by
    simpa using h 0 [] [] blank_nil delimits_nil
  simp [document, hread]

end Postmortem.Json.Reader
