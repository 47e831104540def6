import Postmortem.Proofs.Json.Written

/-!
# The grammar of JSON

What a JSON text is does not depend on how it is read: a value is a word, a number, a string, or
again values in a list or in an object, nested to any depth and with blanks wherever they may stand.
A value that is not wanted is passed over whatever it is, up to its very end.
-/
namespace Postmortem.Json

open Reader

/-! ## Numbers -/

/-- Some digits, at least one. -/
structure IsDigits (ds : List Char) : Prop where
  ne_nil : ds ≠ []
  isDigit : ∀ c ∈ ds, c.isDigit = true

/-- Only zero has a zero in front. -/
structure IsWhole (ds : List Char) : Prop extends IsDigits ds where
  eq_zero : ds.head? = some '0' → ds = ['0']

/-- The part of a number from the point on, which may be missing. -/
inductive IsFraction : List Char → Prop
  | missing : IsFraction []
  | point {ds : List Char} (h : IsDigits ds) : IsFraction ('.' :: ds)

/-- The part of a number from the `e` on, which may be missing. -/
inductive IsExponent : List Char → Prop
  | missing : IsExponent []
  | marked {mark : Char} {sign ds : List Char} (hmark : mark = 'e' ∨ mark = 'E')
      (hsign : sign = [] ∨ sign = ['+'] ∨ sign = ['-']) (h : IsDigits ds) :
      IsExponent (mark :: (sign ++ ds))

/-- A number without its sign. -/
inductive IsNumber : List Char → Prop
  | mk {whole fraction exponent : List Char} (hwhole : IsWhole whole)
      (hfraction : IsFraction fraction) (hexponent : IsExponent exponent) :
      IsNumber (whole ++ (fraction ++ exponent))

theorem IsExponent.head_spec {text rest : List Char} (h : IsExponent text)
    (hrest : Delimits rest) : ∀ c ∈ (text ++ rest).head?, c.isDigit = false ∧ c ≠ '.' := by
  cases h with
  | missing => exact fun c hc => ⟨(hrest c hc).1, (hrest c hc).2.1⟩
  | marked hmark _ _ =>
    rintro c ⟨⟩
    obtain rfl | rfl := hmark <;> decide

theorem IsFraction.noDigit {text rest : List Char} (h : IsFraction text)
    (hrest : ∀ c ∈ rest.head?, c.isDigit = false) :
    ∀ c ∈ (text ++ rest).head?, c.isDigit = false := by
  cases h with
  | missing => exact hrest
  | point _ =>
    rintro c ⟨⟩
    rfl

theorem IsDigits.run_digits {ds rest : List Char} (h : IsDigits ds)
    (hrest : ∀ c ∈ rest.head?, c.isDigit = false) : digits.run (ds ++ rest) = .ok (ds, rest) :=
  Reader.run_digits h.isDigit hrest

theorem IsDigits.exists_cons {ds : List Char} (h : IsDigits ds) :
    ∃ c cs, ds = c :: cs ∧ c.isDigit = true ∧ ∀ d ∈ cs, d.isDigit = true := by
  cases ds with
  | nil => exact absurd rfl h.ne_nil
  | cons c cs =>
    obtain ⟨hc, hcs⟩ := List.forall_mem_cons.mp h.isDigit
    exact ⟨c, cs, rfl, hc, hcs⟩

theorem isBlank_of_isDigit {c : Char} (h : c.isDigit = true) : isBlank c = false := by
  simp only [isBlank, Bool.or_eq_false_iff, decide_eq_false_iff_not]
  refine ⟨⟨⟨?_, ?_⟩, ?_⟩, ?_⟩ <;> rintro rfl <;> exact absurd h (by decide)

theorem run_sign {sign : List Char} (hsign : sign = [] ∨ sign = ['+'] ∨ sign = ['-']) {c : Char}
    (hc : c.isDigit = true) (rest : List Char) :
    (Reader.optional fun c => c = '+' || c = '-').run (sign ++ c :: rest) =
      .ok (sign.head?, c :: rest) := by
  have hplus : c ≠ '+' := by
    rintro rfl
    cases hc
  have hminus : c ≠ '-' := by
    rintro rfl
    cases hc
  obtain rfl | rfl | rfl := hsign <;> simp [Reader.optional, hplus, hminus]

/-- The exponent of a number that is not wanted is passed over. -/
theorem run_skipExponent (mark : Char) {sign ds rest : List Char}
    (hsign : sign = [] ∨ sign = ['+'] ∨ sign = ['-']) (h : IsDigits ds) (hrest : Delimits rest) :
    skipExponent.run (mark :: (sign ++ (ds ++ rest))) = .ok ((), rest) := by
  have hdigits := h.run_digits fun c hc => (hrest c hc).1
  obtain ⟨c, cs, rfl, hc, -⟩ := h.exists_cons
  rw [List.cons_append] at hdigits ⊢
  simp [skipExponent, run_sign hsign hc, hdigits]

/-- Passes over the fraction of a number, if there is one. -/
def skipFraction : Reader Unit := do
  if (← peek?) = some '.' then
    drop
    if (← digits).isEmpty then throw .malformed

/-- Passes over the exponent of a number, if there is one. -/
def skipMarked : Reader Unit := do
  match ← peek? with
  | some 'e' | some 'E' => skipExponent
  | _ => return

theorem IsWhole.run_skipNumber {whole behind : List Char} (h : IsWhole whole)
    (hbehind : ∀ c ∈ behind.head?, c.isDigit = false) :
    skipNumber.run (whole ++ behind) =
      skipFraction.run behind >>= fun r => skipMarked.run r.2 := by
  simp only [skipNumber, skipFraction, skipMarked, StateT.run_bind, h.run_digits hbehind, ok_bind]
  split
  · exact absurd rfl h.ne_nil
  · cases h.eq_zero rfl
  · simp only [StateT.run_bind, run_peek?, ok_bind]
    by_cases hpoint : behind.head? = some '.'
    · simp only [hpoint, if_true, StateT.run_bind, run_drop, ok_bind]
      cases digits.run behind.tail with
      | error e => rfl
      | ok r =>
        simp only [ok_bind]
        split <;> rfl
    · simp only [hpoint, if_false]
      rfl

/-- A fraction and an exponent are passed over when they are there. -/
theorem IsFraction.run_skipFraction {text rest : List Char} (h : IsFraction text)
    (hrest : ∀ c ∈ rest.head?, c.isDigit = false ∧ c ≠ '.') :
    skipFraction.run (text ++ rest) = .ok ((), rest) := by
  cases h with
  | missing =>
    have hpoint : rest.head? ≠ some '.' := fun hhead => (hrest '.' hhead).2 rfl
    simp [skipFraction, hpoint]
  | point h =>
    have hdigits := h.run_digits fun c hc => (hrest c hc).1
    simp [skipFraction, hdigits, h.ne_nil]

theorem IsExponent.run_skipMarked {text rest : List Char} (h : IsExponent text)
    (hrest : Delimits rest) : skipMarked.run (text ++ rest) = .ok ((), rest) := by
  cases h with
  | missing =>
    unfold skipMarked
    simp only [List.nil_append, StateT.run_bind, run_peek?, ok_bind]
    split
    · next hhead => exact absurd rfl (hrest 'e' hhead).2.2.1
    · next hhead => exact absurd rfl (hrest 'E' hhead).2.2.2
    · rfl
  | marked hmark hsign h =>
    have hexponent := fun mark => run_skipExponent mark hsign h hrest
    obtain rfl | rfl := hmark <;> simp [skipMarked, hexponent]

theorem IsNumber.run_skipNumber {text rest : List Char} (h : IsNumber text)
    (hrest : Delimits rest) : skipNumber.run (text ++ rest) = .ok ((), rest) := by
  obtain ⟨hwhole, hfraction, hexponent⟩ := h
  have hbehind := hexponent.head_spec hrest
  rw [List.append_assoc, List.append_assoc,
    hwhole.run_skipNumber (hfraction.noDigit fun c hc => (hbehind c hc).1),
    hfraction.run_skipFraction hbehind, ok_bind, hexponent.run_skipMarked hrest]

/-! ## Values -/

/-- A text with blanks around it. -/
structure Padded where
  before : List Char
  core : List Char
  after : List Char
  before_blank : Blank before
  after_blank : Blank after

namespace Padded

def text (p : Padded) : List Char := p.before ++ (p.core ++ p.after)

/-- Texts with commas between them, and one more in front unless they are the first ones. -/
def joined : (isFirst : Bool) → List Padded → List Char
  | _, [] => []
  | isFirst, p :: ps => comma isFirst ++ (p.text ++ joined false ps)

theorem joined_cons_append (isFirst : Bool) (p : Padded) (ps : List Padded) (rest : List Char) :
    joined isFirst (p :: ps) ++ rest =
      comma isFirst ++ (p.before ++ (p.core ++ (p.after ++ (joined false ps ++ rest)))) := by
  simp [joined, text]

end Padded

/-- A member of an object: how its name is written, the text of its value, and the blanks around
both. -/
structure Member where
  before : List Char
  spelling : List Char
  name : String
  gap : List Char
  space : List Char
  value : List Char
  after : List Char
  before_blank : Blank before
  isString : IsString spelling name.toList
  gap_blank : Blank gap
  space_blank : Blank space
  after_blank : Blank after

namespace Member

def core (m : Member) : List Char :=
  '"' :: (m.spelling ++ '"' :: (m.gap ++ ':' :: (m.space ++ m.value)))

def padded (m : Member) : Padded := ⟨m.before, m.core, m.after, m.before_blank, m.after_blank⟩

/-- The text of an object; the blanks are those of one without members. -/
def object (blanks : List Char) (members : List Member) : List Char :=
  '\x7b' :: (blanks ++ (Padded.joined true (members.map padded) ++ ['\x7d']))

theorem object_append (blanks : List Char) (members : List Member) (rest : List Char) :
    object blanks members ++ rest =
      '\x7b' :: (blanks ++ (Padded.joined true (members.map padded) ++ '\x7d' :: rest)) := by
  simp [object]

theorem joined_cons_append (isFirst : Bool) (m : Member) (ps : List Padded) (rest : List Char) :
    Padded.joined isFirst (m.padded :: ps) ++ rest =
      (comma isFirst ++ m.before) ++ '"' :: (m.spelling ++ '"' :: (m.gap ++ ':' ::
        (m.space ++ (m.value ++ (m.after ++ (Padded.joined false ps ++ rest)))))) := by
  simp [Padded.joined, Padded.text, padded, core]

end Member

/-- The text of a truth value. -/
def boolText (b : Bool) : List Char := (if b then "true" else "false").toList

/-- The texts of values. -/
inductive IsValue : List Char → Prop
  | null : IsValue "null".toList
  | bool (b : Bool) : IsValue (boolText b)
  | number {text : List Char} (h : IsNumber text) : IsValue text
  | negative {text : List Char} (h : IsNumber text) : IsValue ('-' :: text)
  | string {text cs : List Char} (h : IsString text cs) : IsValue ('"' :: (text ++ ['"']))
  | list {blanks : List Char} {items : List Padded} (hblanks : Blank blanks)
      (h : ∀ item ∈ items, IsValue item.core) :
      IsValue ('[' :: (blanks ++ (Padded.joined true items ++ [']'])))
  | object {blanks : List Char} {members : List Member} (hblanks : Blank blanks)
      (h : ∀ m ∈ members, IsValue m.value) : IsValue (Member.object blanks members)

theorem IsNumber.exists_cons {text : List Char} (h : IsNumber text) :
    ∃ c cs, text = c :: cs ∧ c.isDigit = true := by
  obtain ⟨hwhole, -, -⟩ := h
  obtain ⟨c, cs, rfl, hc, -⟩ := hwhole.exists_cons
  exact ⟨c, _, rfl, hc⟩

/-- How a value begins. -/
theorem IsValue.exists_cons {text : List Char} (h : IsValue text) :
    ∃ c cs, text = c :: cs ∧ isBlank c = false ∧ c ≠ ']' ∧ c ≠ '\x7d' := by
  cases h with
  | null => exact ⟨'n', _, rfl, by decide⟩
  | bool b =>
    cases b with
    | true => exact ⟨'t', _, rfl, by decide⟩
    | false => exact ⟨'f', _, rfl, by decide⟩
  | number h =>
    obtain ⟨c, cs, rfl, hc⟩ := h.exists_cons
    refine ⟨c, cs, rfl, isBlank_of_isDigit hc, ?_, ?_⟩ <;> rintro rfl <;> cases hc
  | negative h => exact ⟨'-', _, rfl, by decide⟩
  | string h => exact ⟨'"', _, rfl, by decide⟩
  | list _ _ => exact ⟨'[', _, rfl, by decide⟩
  | object _ _ => exact ⟨'\x7b', _, rfl, by decide⟩

theorem delimits_append {blanks rest : List Char} (hblanks : Blank blanks) (h : Delimits rest) :
    Delimits (blanks ++ rest) := by
  cases blanks with
  | nil => exact h
  | cons c blanks =>
    have hc := (List.forall_mem_cons.mp hblanks).1
    refine delimits_cons ?_
    simp only [isBlank, Bool.or_eq_true, decide_eq_true_eq] at hc
    obtain ((rfl | rfl) | rfl) | rfl := hc <;> decide

/-! ### Passing over values -/

section Skip

variable {part : Reader Unit} {closing : Char}

/-- What stands behind a part of a list or an object. -/
theorem delimits_further (hclosing : closing = ']' ∨ closing = '\x7d') {blanks : List Char}
    (hblanks : Blank blanks) (ps : List Padded) (rest : List Char) :
    Delimits (blanks ++ (Padded.joined false ps ++ closing :: rest)) := by
  refine delimits_append hblanks ?_
  cases ps with
  | nil =>
    refine delimits_cons ?_
    obtain rfl | rfl := hclosing <;> decide
  | cons p ps => exact delimits_cons (by decide)

/-- Parts that are each passed over are passed over one after the other. -/
theorem run_skipParts (hclosing : closing = ']' ∨ closing = '\x7d') {ps : List Padded}
    (h : ∀ p ∈ ps, Reads part p.core ()) {blanks : List Char} (hblanks : Blank blanks)
    (rest : List Char) {n : Nat} (hn : ps.length < n) :
    (skipParts part closing n).run (blanks ++ (Padded.joined false ps ++ closing :: rest)) =
      .ok ((), rest) := by
  have hcomma : isBlank ',' = false := by decide
  have htoken : isBlank closing = false ∧ closing ≠ ',' := by
    obtain rfl | rfl := hclosing <;> decide
  induction ps generalizing n blanks with
  | nil =>
    obtain ⟨n, rfl⟩ := Nat.exists_eq_succ_of_ne_zero (Nat.ne_of_gt hn)
    simp [skipParts, Padded.joined, hblanks, htoken.1, htoken.2]
  | cons p ps ih =>
    obtain ⟨n, rfl⟩ := Nat.exists_eq_succ_of_ne_zero (Nat.ne_of_gt (Nat.zero_lt_of_lt hn))
    obtain ⟨hp, hps⟩ := List.forall_mem_cons.mp h
    have hbehind := delimits_further hclosing p.after_blank ps rest
    have hpart := hp p.before _ p.before_blank hbehind
    have hrest := ih hps p.after_blank (Nat.lt_of_succ_lt_succ hn)
    simp [skipParts, Padded.joined, Padded.text, comma, hblanks, hcomma, hpart, hrest]

theorem run_skipBracketed (hclosing : closing = ']' ∨ closing = '\x7d') {ps : List Padded}
    (h : ∀ p ∈ ps, Reads part p.core ())
    (hhead : ∀ p ∈ ps, ∃ c cs, p.core = c :: cs ∧ isBlank c = false ∧ c ≠ closing)
    {blanks : List Char} (hblanks : Blank blanks) (rest : List Char) {n : Nat}
    (hn : ps.length ≤ n) :
    (skipBracketed part closing n).run (blanks ++ (Padded.joined true ps ++ closing :: rest)) =
      .ok ((), rest) := by
  have htoken : isBlank closing = false := by
    obtain rfl | rfl := hclosing <;> decide
  cases ps with
  | nil => simp [skipBracketed, Padded.joined, hblanks, htoken]
  | cons p ps =>
    obtain ⟨hp, hps⟩ := List.forall_mem_cons.mp h
    obtain ⟨c, cs, hcore, hc, hne⟩ := hhead p List.mem_cons_self
    have hfront : Blank (blanks ++ p.before) :=
      List.forall_mem_append.mpr ⟨hblanks, p.before_blank⟩
    have hbehind := delimits_further hclosing p.after_blank ps rest
    have hpart := hp [] _ blank_nil hbehind
    have hrest := run_skipParts hclosing hps p.after_blank rest (n := n) hn
    have htext : blanks ++ (Padded.joined true (p :: ps) ++ closing :: rest) =
        (blanks ++ p.before) ++ c :: (cs ++ (p.after ++
          (Padded.joined false ps ++ closing :: rest))) := by
      simp [Padded.joined, Padded.text, comma, hcore]
    rw [hcore] at hpart
    rw [htext, skipBracketed, StateT.run_bind, run_peekToken _ hfront hc, ok_bind]
    simp_all

theorem run_skipName {spelling : List Char} {name : String} {gap : List Char}
    (hname : IsString spelling name.toList) (hgap : Blank gap) {blanks : List Char}
    (hblanks : Blank blanks) (rest : List Char) :
    skipName.run (blanks ++ '"' :: (spelling ++ '"' :: (gap ++ ':' :: rest))) = .ok ((), rest) := by
  have hquote : isBlank '"' = false := by decide
  have hcolon : isBlank ':' = false := by decide
  simp [skipName, hblanks, hgap, hquote, hcolon, hname.run_skipString]

theorem length_le_of_mem_joined (isFirst : Bool) {ps : List Padded} {p : Padded} (h : p ∈ ps) :
    p.core.length ≤ (Padded.joined isFirst ps).length := by
  induction ps generalizing isFirst with
  | nil => cases h
  | cons q ps ih =>
    simp only [Padded.joined, Padded.text, List.length_append]
    obtain rfl | h := List.mem_cons.mp h
    · omega
    · have := ih false h
      omega

theorem length_le_joined {ps : List Padded} (h : ∀ p ∈ ps, p.core ≠ []) (isFirst : Bool) :
    ps.length ≤ (Padded.joined isFirst ps).length := by
  induction ps generalizing isFirst with
  | nil => exact Nat.le_refl 0
  | cons p ps ih =>
    obtain ⟨hp, hps⟩ := List.forall_mem_cons.mp h
    have hcore := List.length_pos_iff.mpr hp
    have hrest := ih hps false
    simp only [Padded.joined, Padded.text, List.length_append, List.length_cons]
    omega

theorem Member.length_le_joined (members : List Member) (isFirst : Bool) :
    members.length ≤ (Padded.joined isFirst (members.map padded)).length := by
  have hcore : ∀ p ∈ members.map padded, p.core ≠ [] := by
    intro p hp
    obtain ⟨m, -, rfl⟩ := List.mem_map.mp hp
    exact List.cons_ne_nil _ _
  simpa using Json.length_le_joined hcore isFirst

/-- A digit begins a number. -/
theorem run_skipValueUpTo_digit {blanks : List Char} (hblanks : Blank blanks) {c : Char}
    (hc : c.isDigit = true) (rest : List Char) (n : Nat) :
    (skipValueUpTo (n + 1)).run (blanks ++ c :: rest) = skipNumber.run (c :: rest) := by
  rw [skipValueUpTo, StateT.run_bind, run_peekToken rest hblanks (isBlank_of_isDigit hc), ok_bind]
  dsimp only
  split
  all_goals first | cases hc | rw [if_pos hc]

theorem run_skipValueUpTo_list {blanks : List Char} (hblanks : Blank blanks) (rest : List Char)
    (n : Nat) : (skipValueUpTo (n + 1)).run (blanks ++ '[' :: rest) =
      (skipBracketed (skipValueUpTo n) ']' n).run rest := by
  have hbracket : isBlank '[' = false := by decide
  simp [skipValueUpTo, hblanks, hbracket]

theorem run_skipValueUpTo_object {blanks : List Char} (hblanks : Blank blanks) (rest : List Char)
    (n : Nat) : (skipValueUpTo (n + 1)).run (blanks ++ '\x7b' :: rest) =
      (skipBracketed (do skipName; skipValueUpTo n) '\x7d' n).run rest := by
  have hbrace : isBlank '\x7b' = false := by decide
  simp [skipValueUpTo, hblanks, hbrace]

/-- Any value is passed over up to its end, however deep it is nested. -/
theorem IsValue.reads_skipValueUpTo {text : List Char} (h : IsValue text) {n : Nat}
    (hn : text.length ≤ n) : Reads (skipValueUpTo (n + 1)) text () := by
  induction h generalizing n with
  | null =>
    intro blanks rest hblanks _
    have hn : isBlank 'n' = false := by decide
    have hword := run_word "null".toList rest
    simp_all [skipValueUpTo]
  | bool b =>
    intro blanks rest hblanks _
    cases b with
    | true =>
      have ht : isBlank 't' = false := by decide
      have hword := run_word "true".toList rest
      simp_all [skipValueUpTo, boolText]
    | false =>
      have hf : isBlank 'f' = false := by decide
      have hword := run_word "false".toList rest
      simp_all [skipValueUpTo, boolText]
  | number h =>
    intro blanks rest hblanks hrest
    have hnumber := h.run_skipNumber hrest
    obtain ⟨c, cs, rfl, hc⟩ := h.exists_cons
    rw [List.cons_append] at hnumber ⊢
    rw [run_skipValueUpTo_digit hblanks hc, hnumber]
  | negative h =>
    intro blanks rest hblanks hrest
    have hminus : isBlank '-' = false := by decide
    simp [skipValueUpTo, hblanks, hminus, h.run_skipNumber hrest]
  | string h =>
    intro blanks rest hblanks _
    have hquote : isBlank '"' = false := by decide
    simp [skipValueUpTo, hblanks, hquote, h.run_skipString]
  | @list gap items hgap h ih =>
    simp only [List.length_cons, List.length_append] at hn
    obtain ⟨n, rfl⟩ := Nat.exists_eq_succ_of_ne_zero (show n ≠ 0 by omega)
    intro blanks rest hblanks _
    have hhead : ∀ p ∈ items, ∃ c cs, p.core = c :: cs ∧ isBlank c = false ∧ c ≠ ']' := by
      intro p hp
      obtain ⟨c, cs, hcore, hc, hne, -⟩ := (h p hp).exists_cons
      exact ⟨c, cs, hcore, hc, hne⟩
    have hparts : ∀ p ∈ items, Reads (skipValueUpTo (n + 1)) p.core () := by
      intro p hp
      have := length_le_of_mem_joined true hp
      exact ih p hp (by omega)
    have hcore : ∀ p ∈ items, p.core ≠ [] := by
      intro p hp
      obtain ⟨c, cs, hcore, -⟩ := hhead p hp
      rw [hcore]
      exact List.cons_ne_nil c cs
    have hcount := length_le_joined hcore true
    have hskip := run_skipBracketed (.inl rfl) hparts hhead hgap rest (n := n + 1) (by omega)
    simpa [run_skipValueUpTo_list hblanks] using hskip
  | @object gap members hgap h ih =>
    simp only [Member.object, List.length_cons, List.length_append] at hn
    obtain ⟨n, rfl⟩ := Nat.exists_eq_succ_of_ne_zero (show n ≠ 0 by omega)
    intro blanks rest hblanks _
    have hhead : ∀ p ∈ members.map Member.padded,
        ∃ c cs, p.core = c :: cs ∧ isBlank c = false ∧ c ≠ '\x7d' := by
      intro p hp
      obtain ⟨m, -, rfl⟩ := List.mem_map.mp hp
      exact ⟨'"', _, rfl, by decide⟩
    have hparts : ∀ p ∈ members.map Member.padded,
        Reads (do skipName; skipValueUpTo (n + 1)) p.core () := by
      intro p hp blanks rest hblanks hrest
      obtain ⟨m, hm, rfl⟩ := List.mem_map.mp hp
      have := length_le_of_mem_joined true hp
      have hlength : m.value.length ≤ m.padded.core.length := by
        simp only [Member.padded, Member.core, List.length_cons, List.length_append]
        omega
      have hvalue := ih m hm (n := n) (by omega) m.space rest m.space_blank hrest
      simp [Member.padded, Member.core, run_skipName m.isString m.gap_blank hblanks, hvalue]
    have hcount := Member.length_le_joined members true
    have hskip := run_skipBracketed (.inr rfl) hparts hhead hgap rest (n := n + 1)
      (by rw [List.length_map]; omega)
    simpa [Member.object, run_skipValueUpTo_object hblanks] using hskip

theorem run_skipValue (cs : List Char) :
    skipValue.run cs = (skipValueUpTo (cs.length + 1)).run cs := by
  rw [skipValue, StateT.run_bind, StateT.run_get, pure_bind]

theorem IsValue.reads_skipValue {text : List Char} (h : IsValue text) :
    Reads skipValue text () := by
  intro blanks rest hblanks hrest
  have hlength : text.length ≤ (blanks ++ (text ++ rest)).length := by
    simp only [List.length_append]
    omega
  rw [run_skipValue]
  exact h.reads_skipValueUpTo hlength blanks rest hblanks hrest

end Skip

end Postmortem.Json
