import Postmortem.Proofs.Json.Objects

/-!
# How far values are read

A reader of settings may refuse a value, but when it takes one it takes all of it and nothing of
what follows. So the members of an object that was read are the ones that it has, and no two of them
named the same field.
-/
namespace Postmortem.Json

open Reader

variable {α β σ : Type}

theorem bind_eq_ok {x : Except Fault α} {f : α → Except Fault β} {b : β} :
    (x >>= f) = .ok b ↔ ∃ a, x = .ok a ∧ f a = .ok b := by
  cases x with
  | error e => simp [Bind.bind, Except.bind]
  | ok a => simp

/-- Whether a reader takes nothing. -/
def Refuses (read : Reader α) : Prop := ∀ cs r, read.run cs ≠ .ok r

theorem refuses_throw (e : Fault) : Refuses (throw e : Reader α) := by
  rintro cs r ⟨⟩

theorem refuses_bind {read : Reader β} {next : β → Reader α} (h : ∀ b, Refuses (next b)) :
    Refuses (read >>= next) := by
  intro cs r hrun
  rw [StateT.run_bind] at hrun
  obtain ⟨p, -, hrun⟩ := bind_eq_ok.mp hrun
  exact h p.1 p.2 r hrun

theorem refuses_throw_bind (e : Fault) (next : β → Reader α) :
    Refuses ((throw e : Reader β) >>= next) := by
  rintro cs r ⟨⟩

theorem mismatch_refuses : Refuses (mismatch : Reader α) := by
  refine refuses_bind fun c => ?_
  dsimp only
  split
  all_goals try split
  all_goals first
    | exact refuses_throw _
    | exact refuses_bind fun _ => refuses_throw _
    | exact refuses_bind fun _ => refuses_bind fun _ => refuses_throw _

/-- Whether a reader that takes a text takes all of it, and nothing behind it. -/
def TakesWhole (read : Reader α) (text : List Char) : Prop :=
  ∀ blanks rest a rest', Blank blanks → Delimits rest →
    read.run (blanks ++ (text ++ rest)) = .ok (a, rest') → rest' = rest

variable {read : Reader α} {text : List Char}

theorem Reader.Reads.takesWhole {a : α} (h : Reads read text a) : TakesWhole read text := by
  intro blanks rest b rest' hblanks hrest hrun
  cases (h blanks rest hblanks hrest).symm.trans hrun
  rfl

/-- Nothing is taken of a text that begins with an unwanted character. -/
theorem takesWhole_of_refuses {next : Char → Reader α} {c : Char} {cs : List Char}
    (hread : read = peekToken >>= next) (hc : isBlank c = false) (h : Refuses (next c)) :
    TakesWhole read (c :: cs) := by
  intro blanks rest a rest' hblanks _ hrun
  rw [hread, StateT.run_bind, List.cons_append, run_peekToken _ hblanks hc] at hrun
  exact absurd hrun (h _ _)

/-- A reader that goes on by the first character of a value, and that refuses the values of some
kinds, takes all of a value if it does so with those of the other kinds. -/
theorem takesWhole_of_kinds {next : Char → Reader α} (hread : read = peekToken >>= next)
    (hnull : Refuses (next 'n') ∨ TakesWhole read "null".toList)
    (hbool : Refuses (next 't') ∧ Refuses (next 'f') ∨ ∀ b, TakesWhole read (boolText b))
    (hnumber : (∀ c, c.isDigit = true → Refuses (next c)) ∨
      ∀ text, IsNumber text → TakesWhole read text)
    (hnegative : Refuses (next '-'))
    (hstring : Refuses (next '"') ∨
      ∀ text cs, IsString text cs → TakesWhole read ('"' :: (text ++ ['"'])))
    (hlist : Refuses (next '[') ∨ ∀ blanks items, Blank blanks →
      (∀ item ∈ items, IsValue item.core) →
        TakesWhole read ('[' :: (blanks ++ (Padded.joined true items ++ [']']))))
    (hobject : Refuses (next '\x7b') ∨ ∀ blanks members, Blank blanks →
      (∀ m ∈ members, IsValue m.value) → TakesWhole read (Member.object blanks members))
    (h : IsValue text) : TakesWhole read text := by
  cases h with
  | null =>
    obtain hnull | hnull := hnull
    · exact takesWhole_of_refuses hread (c := 'n') (by decide) hnull
    · exact hnull
  | bool b =>
    obtain ⟨htrue, hfalse⟩ | hbool := hbool
    · cases b with
      | true => exact takesWhole_of_refuses hread (c := 't') (by decide) htrue
      | false => exact takesWhole_of_refuses hread (c := 'f') (by decide) hfalse
    · exact hbool b
  | number h =>
    obtain hnumber | hnumber := hnumber
    · obtain ⟨c, cs, rfl, hc⟩ := h.exists_cons
      exact takesWhole_of_refuses hread (isBlank_of_isDigit hc) (hnumber c hc)
    · exact hnumber text h
  | negative h => exact takesWhole_of_refuses hread (by decide) hnegative
  | string h =>
    obtain hstring | hstring := hstring
    · exact takesWhole_of_refuses hread (by decide) hstring
    · exact hstring _ _ h
  | list hblanks h =>
    obtain hlist | hlist := hlist
    · exact takesWhole_of_refuses hread (by decide) hlist
    · exact hlist _ _ hblanks h
  | object hblanks h =>
    obtain hobject | hobject := hobject
    · exact takesWhole_of_refuses hread (by decide) hobject
    · exact hobject _ _ hblanks h

theorem bool_takesWhole (h : IsValue text) : TakesWhole bool text := by
  refine takesWhole_of_kinds rfl (.inl mismatch_refuses) (.inr fun b => (bool_reads b).takesWhole)
    (.inl fun c hc => ?_) mismatch_refuses (.inl mismatch_refuses) (.inl mismatch_refuses)
    (.inl mismatch_refuses) h
  split
  · cases hc
  · cases hc
  · exact mismatch_refuses

theorem null_takesWhole (h : IsValue text) : TakesWhole null text := by
  refine takesWhole_of_kinds rfl (.inr null_reads.takesWhole)
    (.inl ⟨mismatch_refuses, mismatch_refuses⟩) (.inl fun c hc => ?_) mismatch_refuses
    (.inl mismatch_refuses) (.inl mismatch_refuses) (.inl mismatch_refuses) h
  split
  · next hn =>
    subst hn
    cases hc
  · exact mismatch_refuses

/-! ### Numbers -/

/-- Whether a reader takes no characters. -/
def Stays (read : Reader α) : Prop := ∀ cs r, read.run cs = .ok r → r.2 = cs

theorem stays_pure (a : α) : Stays (pure a : Reader α) := by
  rintro cs r ⟨⟩
  rfl

theorem Refuses.stays {read : Reader α} (h : Refuses read) : Stays read := fun cs r hrun =>
  absurd hrun (h cs r)

theorem stays_ite {p : Prop} [Decidable p] {x y : Reader α} (hx : Stays x) (hy : Stays y) :
    Stays (if p then x else y) := by
  split
  · exact hx
  · exact hy

theorem run_exponent_ok {significand : Nat} {start : Int} {mark : Char}
    {sign ds rest : List Char} (hsign : sign = [] ∨ sign = ['+'] ∨ sign = ['-']) (h : IsDigits ds)
    (hrest : Delimits rest) {r : Unit × List Char}
    (hrun : (exponent significand start).run (mark :: (sign ++ (ds ++ rest))) = .ok r) :
    r.2 = rest := by
  obtain ⟨c, cs, rfl, hc, hcs⟩ := h.exists_cons
  have hdigits := run_digits hcs fun c hc => (hrest c hc).1
  simp only [exponent, StateT.run_bind, run_drop, ok_bind, List.tail_cons, List.cons_append,
    run_sign hsign hc, run_next, hc, if_true, hdigits] at hrun
  exact stays_ite (stays_ite (refuses_throw _).stays (stays_pure _))
    (stays_ite (refuses_throw _).stays (stays_pure _)) rest r hrun

theorem run_fraction_ok {significand : Nat} {start : Int} {ds exponent rest : List Char}
    (h : IsDigits ds) (hexponent : IsExponent exponent) (hrest : Delimits rest)
    {r : Unit × List Char}
    (hrun : (fraction significand start).run ('.' :: (ds ++ (exponent ++ rest))) = .ok r) :
    r.2 = rest := by
  have hdigits := h.run_digits fun c hc => (hexponent.head_spec hrest c hc).1
  have hsome : ds.isEmpty = false := by simpa using h.ne_nil
  simp only [fraction, StateT.run_bind, run_drop, ok_bind, List.tail_cons, hdigits, hsome,
    Bool.false_eq_true, if_false, run_peek?] at hrun
  cases hexponent with
  | missing =>
    rw [List.nil_append] at hrun
    split at hrun
    · next hhead => exact absurd rfl (hrest 'e' hhead).2.2.1
    · next hhead => exact absurd rfl (hrest 'E' hhead).2.2.2
    · exact stays_ite (refuses_throw _).stays (stays_pure _) rest r hrun
  | marked hmark hsign hds =>
    obtain rfl | rfl := hmark
    · exact run_exponent_ok hsign hds hrest (by simpa using hrun)
    · exact run_exponent_ok hsign hds hrest (by simpa using hrun)

/-- The rest of a number after the given digits. -/
def numberFrom (isPositive : Bool) (ds : List Char) : Reader (Option Nat) := do
  let (significand, left) := significandOf 0 ds
  match ← peek? with
  | some '.' =>
    fraction significand left.length
    return none
  | some 'e' | some 'E' =>
    exponent significand left.length
    return none
  | _ =>
    if left.isEmpty then return if isPositive then some significand else none
    if exceedsFloat significand left.length then throw .malformed
    return none

theorem IsWhole.run_number {whole behind : List Char} (h : IsWhole whole)
    (hbehind : ∀ c ∈ behind.head?, c.isDigit = false) (isPositive : Bool) :
    (number isPositive).run (whole ++ behind) = (numberFrom isPositive whole).run behind := by
  obtain ⟨c, cs, rfl, hc, hcs⟩ := h.exists_cons
  have hdigits := run_digits hcs hbehind
  have hnone : behind.head?.any Char.isDigit = false := by
    cases behind <;> simp_all
  simp only [number, List.cons_append, StateT.run_bind, run_next, ok_bind, hc, if_true]
  by_cases hzero : c = '0'
  · have hcs : cs = [] := (List.cons.inj (h.eq_zero (congrArg some hzero))).2
    subst hzero hcs
    simp only [if_true, StateT.run_bind, List.nil_append, StateT.run_pure, pure_eq_ok, ok_bind,
      run_peek?, hnone, Bool.and_false, Bool.false_eq_true, if_false]
    rfl
  · simp only [hzero, if_false, StateT.run_bind, hdigits, ok_bind, run_peek?, decide_false,
      Bool.false_and, Bool.false_eq_true]
    rfl

theorem run_number_ok {isPositive : Bool} {rest : List Char} (h : IsNumber text)
    (hrest : Delimits rest) {r : Option Nat × List Char}
    (hrun : (number isPositive).run (text ++ rest) = .ok r) : r.2 = rest := by
  obtain @⟨whole, fraction, exponent, hwhole, hfraction, hexponent⟩ := h
  have hbehind := hfraction.noDigit fun c hc => (hexponent.head_spec hrest c hc).1
  rw [List.append_assoc, List.append_assoc, hwhole.run_number hbehind] at hrun
  simp only [numberFrom, StateT.run_bind, run_peek?, ok_bind] at hrun
  cases hfraction with
  | point h =>
    obtain ⟨u, hend, hnone⟩ := bind_eq_ok.mp hrun
    cases hnone
    exact run_fraction_ok h hexponent hrest hend
  | missing =>
    cases hexponent with
    | marked hmark hsign hds =>
      simp only [List.nil_append, List.cons_append, List.append_assoc, List.head?_cons] at hrun
      obtain rfl | rfl := hmark
      · obtain ⟨u, hend, hnone⟩ := bind_eq_ok.mp hrun
        cases hnone
        exact run_exponent_ok hsign hds hrest hend
      · obtain ⟨u, hend, hnone⟩ := bind_eq_ok.mp hrun
        cases hnone
        exact run_exponent_ok hsign hds hrest hend
    | missing =>
      simp only [List.nil_append] at hrun
      split at hrun
      · next hhead => exact absurd rfl (hrest '.' hhead).2.1
      · next hhead => exact absurd rfl (hrest 'e' hhead).2.2.1
      · next hhead => exact absurd rfl (hrest 'E' hhead).2.2.2
      · exact stays_ite (stays_pure _)
          (stays_ite (refuses_throw_bind _ _).stays (stays_pure _)) rest r hrun

theorem natural_takesWhole (limit : Nat) (h : IsValue text) : TakesWhole (natural limit) text := by
  refine takesWhole_of_kinds rfl (.inl mismatch_refuses) (.inl ⟨mismatch_refuses, mismatch_refuses⟩)
    (.inr fun text hnumber => ?_) mismatch_refuses (.inl mismatch_refuses) (.inl mismatch_refuses)
    (.inl mismatch_refuses) h
  intro blanks rest a rest' hblanks hrest hrun
  have hend : ∀ r, (number true).run (text ++ rest) = .ok r → r.2 = rest :=
    fun r => run_number_ok hnumber hrest
  obtain ⟨c, cs, rfl, hc⟩ := hnumber.exists_cons
  rw [List.cons_append] at hrun hend
  rw [natural, StateT.run_bind, run_peekToken _ hblanks (isBlank_of_isDigit hc), ok_bind] at hrun
  dsimp only at hrun
  rw [if_pos hc, StateT.run_bind] at hrun
  obtain ⟨r, hr, hvalue⟩ := bind_eq_ok.mp hrun
  rw [← hend r hr]
  cases hn : r.1 with
  | none =>
    rw [hn] at hvalue
    cases hvalue
  | some n =>
    rw [hn] at hvalue
    exact stays_ite (stays_pure n) (refuses_throw _).stays r.2 (a, rest') hvalue

/-! ### Choices -/

section Choice

variable {choices : List (String × α)} {blanks spelling : List Char} {name : String}

theorem choice_takesWhole (h : IsValue text) : TakesWhole (choice choices) text := by
  refine takesWhole_of_kinds rfl (.inl (refuses_throw _)) (.inl ⟨refuses_throw _, refuses_throw _⟩)
    (.inl fun c hc => ?_) (refuses_throw _) (.inr fun spelling cs hspelling => ?_)
    (.inl (refuses_throw _)) (.inr fun gap members hgap hmembers => ?_) h
  · split
    · cases hc
    · cases hc
    · exact refuses_throw _
  · intro blanks rest a rest' hblanks _ hrun
    have hname : Spells spelling (String.ofList cs) :=
      IsString.spells (by rwa [String.toList_ofList])
    rw [List.cons_append, List.append_assoc, List.singleton_append,
      run_choice_string hblanks hname] at hrun
    cases hfound : choices.lookup (String.ofList cs) with
    | none =>
      rw [hfound] at hrun
      cases hrun
    | some b =>
      rw [hfound] at hrun
      cases hrun
      rfl
  · intro blanks rest a rest' hblanks hrest hrun
    have hbrace : isBlank '\x7d' = false := by decide
    cases members with
    | nil =>
      have hnone : ∀ r, stringValue.run (gap ++ '\x7d' :: rest) ≠ .ok r := by
        intro r
        rw [stringValue, StateT.run_bind, run_peekToken rest hgap hbrace, ok_bind,
          if_neg (show ¬ '\x7d' = '"' by decide)]
        exact mismatch_refuses _ r
      rw [Member.object_append, run_choice_object hblanks] at hrun
      obtain ⟨r, hr, -⟩ := bind_eq_ok.mp hrun
      exact absurd hr (hnone r)
    | cons m ms =>
      rw [run_choice_member hblanks hgap] at hrun
      cases hfound : choices.lookup m.name with
      | none =>
        rw [hfound] at hrun
        cases hrun
      | some b =>
        rw [hfound] at hrun
        dsimp only at hrun
        rw [StateT.run_bind] at hrun
        obtain ⟨r, hr, hrun⟩ := bind_eq_ok.mp hrun
        have hbehind := delimits_further (.inr rfl) m.after_blank (ms.map Member.padded) rest
        have hwhole : r.2 = m.after ++
            (Padded.joined false (ms.map Member.padded) ++ '\x7d' :: rest) :=
          null_takesWhole (hmembers m List.mem_cons_self) m.space _ _ _ m.space_blank hbehind hr
        rw [hwhole] at hrun
        cases ms with
        | nil =>
          rw [StateT.run_bind, List.map_nil, Padded.joined, List.nil_append,
            run_expectToken rest m.after_blank hbrace, ok_bind] at hrun
          cases hrun
          rfl
        | cons m' ms =>
          have hnone : ∀ r cs, (expectToken '\x7d').run (m.after ++ ',' :: cs) ≠ .ok r := by
            intro r cs
            rw [expectToken, StateT.run_bind, run_peekToken cs m.after_blank (by decide), ok_bind,
              if_neg (show ¬ ',' = '\x7d' by decide)]
            exact refuses_throw _ _ r
          rw [StateT.run_bind] at hrun
          obtain ⟨r, hr, -⟩ := bind_eq_ok.mp hrun
          exact absurd hr (hnone r _)

end Choice

/-! ### Records -/

section Record

variable {fields : List (RecordField σ)} {seen : List String} {s : σ} {blanks : List Char}

/-- Whether each field of a record takes all of a value if it takes it. -/
def FieldsTakeWhole (fields : List (RecordField σ)) : Prop :=
  ∀ field ∈ fields, ∀ s text, IsValue text → TakesWhole (field.read s) text

theorem of_takesWhole {name : String} {read : Reader α} {put : σ → α → σ}
    (h : TakesWhole read text) (s : σ) :
    TakesWhole ((RecordField.of name read put).read s) text := by
  intro blanks rest a rest' hblanks hrest hrun
  obtain ⟨r, hr, hput⟩ := bind_eq_ok.mp hrun
  cases hput
  exact h blanks rest r.1 r.2 hblanks hrest hr

/-- The items of a list are read up to the end of the list, or it is refused. -/
theorem run_items_ok (hfields : FieldsTakeWhole fields) {ps : List Padded}
    (hps : ∀ p ∈ ps, IsValue p.core) (hblanks : Blank blanks) (isFirst : Bool) (rest : List Char)
    {r : σ × List Char}
    (hrun : (items fields isFirst s).run
      (blanks ++ (Padded.joined isFirst ps ++ ']' :: rest)) = .ok r) : r.2 = rest := by
  have hbracket : isBlank ']' = false := by decide
  have hcomma : isBlank ',' = false := by decide
  induction fields generalizing ps s blanks isFirst with
  | nil =>
    cases ps with
    | nil =>
      rw [items, StateT.run_bind, Padded.joined, List.nil_append,
        run_expectToken rest hblanks hbracket, ok_bind] at hrun
      cases hrun
      rfl
    | cons p ps =>
      -- There are more items than fields.
      obtain ⟨c, cs, hcore, hc, hne, -⟩ := (hps p List.mem_cons_self).exists_cons
      have hnone : ∀ (t : Char) (front cs : List Char) (r : Unit × List Char), Blank front →
          isBlank t = false → t ≠ ']' → (expectToken ']').run (front ++ t :: cs) ≠ .ok r := by
        intro t front cs r hfront ht hne
        rw [expectToken, StateT.run_bind, run_peekToken cs hfront ht, ok_bind, if_neg hne]
        exact refuses_throw _ _ r
      rw [items, StateT.run_bind, Padded.joined_cons_append, hcore] at hrun
      obtain ⟨r', hr', -⟩ := bind_eq_ok.mp hrun
      cases isFirst with
      | true =>
        have hfront := List.forall_mem_append.mpr ⟨hblanks, p.before_blank⟩
        rw [comma, if_pos rfl, List.nil_append, ← List.append_assoc] at hr'
        exact absurd hr' (hnone c _ _ r' hfront hc hne)
      | false => exact absurd hr' (hnone ',' blanks _ r' hblanks hcomma (by decide))
  | cons field fields ih =>
    obtain ⟨hfield, hfields⟩ := List.forall_mem_cons.mp hfields
    cases ps with
    | nil =>
      rw [items, StateT.run_bind, Padded.joined, List.nil_append,
        run_peekToken rest hblanks hbracket, ok_bind] at hrun
      simp only [if_true] at hrun
      cases hrun
      rfl
    | cons p ps =>
      obtain ⟨hp, hps⟩ := List.forall_mem_cons.mp hps
      obtain ⟨c, cs, hcore, hc, hne, -⟩ := hp.exists_cons
      have hbehind := delimits_further (.inl rfl) p.after_blank ps rest
      -- Whatever stands before it, the value is read by the field, and the others behind it.
      have hvalue : (do items fields false (← field.read s) : Reader σ).run
          (c :: (cs ++ (p.after ++ (Padded.joined false ps ++ ']' :: rest)))) = .ok r := by
        rw [items, StateT.run_bind, Padded.joined_cons_append, hcore] at hrun
        cases isFirst with
        | true =>
          have hfront := List.forall_mem_append.mpr ⟨hblanks, p.before_blank⟩
          rw [comma, if_pos rfl, List.nil_append, ← List.append_assoc, List.cons_append,
            run_peekToken _ hfront hc, ok_bind] at hrun
          simpa [hne] using hrun
        | false =>
          rw [comma, if_neg Bool.false_ne_true, List.singleton_append, List.cons_append,
            run_peekToken _ hblanks hcomma, ok_bind] at hrun
          simpa [hne, hc, p.before_blank] using hrun
      rw [StateT.run_bind] at hvalue
      obtain ⟨r', hr', hitems⟩ := bind_eq_ok.mp hvalue
      rw [← List.cons_append, ← hcore] at hr'
      have hwhole := hfield s p.core hp [] _ r'.1 r'.2 blank_nil hbehind hr'
      rw [hwhole] at hitems
      exact ih hfields hps p.after_blank false hitems

/-- Whether a reader takes something that begins with a text. -/
def Accepts (read : Reader α) (text : List Char) : Prop :=
  ∃ blanks rest r, Blank blanks ∧ Delimits rest ∧ read.run (blanks ++ (text ++ rest)) = .ok r

theorem Accepts.of_field {name : String} {read : Reader α} {put : σ → α → σ}
    (h : Accepts ((RecordField.of name read put).read s) text) : Accepts read text := by
  obtain ⟨blanks, rest, r, hblanks, hrest, hrun⟩ := h
  obtain ⟨r', hr', -⟩ := bind_eq_ok.mp hrun
  exact ⟨blanks, rest, r', hblanks, hrest, hr'⟩

/-- What is known of the members of an object that was read up to its end. -/
structure WereRead (fields : List (RecordField σ)) (members : List Member) : Prop where
  nodup : (Member.named fields members).Nodup
  accepts : ∀ m ∈ members, ∀ field, fields.find? (·.name = m.name) = some field →
    ∃ s, Accepts (field.read s) m.value

theorem run_member_ok {field : RecordField σ} {m : Member} {rest : List Char}
    (hfind : fields.find? (·.name = m.name) = some field) {r : (List String × σ) × List Char}
    (hrun : (member fields seen s m.name).run (m.gap ++ ':' :: (m.space ++ (m.value ++ rest))) =
      .ok r) :
    m.name ∉ seen ∧ ∃ r', (field.read s).run (m.space ++ (m.value ++ rest)) = .ok r' ∧
      r = ((m.name :: seen, r'.1), r'.2) := by
  have hcolon : isBlank ':' = false := by decide
  simp only [member, hfind] at hrun
  by_cases hnew : m.name ∈ seen
  · rw [if_pos (List.contains_iff_mem.mpr hnew)] at hrun
    exact absurd hrun (refuses_throw_bind _ _ _ r)
  · rw [if_neg (by simpa using hnew), StateT.run_bind, run_expectToken _ m.gap_blank hcolon,
      ok_bind, StateT.run_bind] at hrun
    obtain ⟨r', hr', hreturn⟩ := bind_eq_ok.mp hrun
    cases hreturn
    exact ⟨hnew, r', hr', rfl⟩

theorem run_members_ok (hfields : FieldsTakeWhole fields) {ms : List Member}
    (hms : ∀ m ∈ ms, IsValue m.value) (hblanks : Blank blanks) (isFirst : Bool) (rest : List Char)
    {n : Nat} {r : σ × List Char}
    (hrun : (members fields n isFirst seen s).run
      (blanks ++ (Padded.joined isFirst (ms.map Member.padded) ++ '\x7d' :: rest)) = .ok r) :
    r.2 = rest ∧ (∀ name ∈ Member.named fields ms, name ∉ seen) ∧ WereRead fields ms := by
  induction ms generalizing n seen s blanks isFirst with
  | nil =>
    cases n with
    | zero => cases hrun
    | succ n =>
      rw [List.map_nil, Padded.joined, List.nil_append, run_members_end rest hblanks] at hrun
      cases hrun
      refine ⟨rfl, ?_, List.nodup_nil, ?_⟩
      · exact fun _ h => absurd h List.not_mem_nil
      · exact fun _ h => absurd h List.not_mem_nil
  | cons m ms ih =>
    cases n with
    | zero => cases hrun
    | succ n =>
      obtain ⟨hm, hms⟩ := List.forall_mem_cons.mp hms
      have hcolon : isBlank ':' = false := by decide
      have hbehind := delimits_further (.inr rfl) m.after_blank (ms.map Member.padded) rest
      rw [List.map_cons, run_members_next hblanks, StateT.run_bind] at hrun
      obtain ⟨⟨⟨seen', s'⟩, rest'⟩, hmember, hrun⟩ := bind_eq_ok.mp hrun
      cases hfind : fields.find? (·.name = m.name) with
      | some field =>
        obtain ⟨hnew, r', hr', hstep⟩ := run_member_ok hfind hmember
        cases hstep
        have hwhole : r'.2 = _ := hfields field (List.mem_of_find?_eq_some hfind) s m.value hm
          m.space _ r'.1 r'.2 m.space_blank hbehind hr'
        rw [hwhole] at hrun
        obtain ⟨hrest, hseen, hread⟩ := ih hms m.after_blank false hrun
        rw [named_cons_of_field hfind, List.forall_mem_cons]
        refine ⟨hrest, ⟨hnew, fun name hname => ?_⟩, ?_, ?_⟩
        · exact fun hmem => hseen name hname (List.mem_cons_of_mem _ hmem)
        · rw [named_cons_of_field hfind]
          exact List.nodup_cons.mpr ⟨fun hmem => hseen _ hmem List.mem_cons_self, hread.nodup⟩
        · rw [List.forall_mem_cons]
          refine ⟨fun field' hfield' => ?_, hread.accepts⟩
          rw [hfind] at hfield'
          cases hfield'
          exact ⟨s, m.space, _, r', m.space_blank, hbehind, hr'⟩
      | none =>
        rw [run_member_other hfind hm hbehind] at hmember
        cases hmember
        obtain ⟨hrest, hseen, hread⟩ := ih hms m.after_blank false hrun
        rw [named_cons_of_other hfind]
        refine ⟨hrest, hseen, by rw [named_cons_of_other hfind]; exact hread.nodup, ?_⟩
        rw [List.forall_mem_cons]
        refine ⟨fun field hfield => ?_, hread.accepts⟩
        rw [hfind] at hfield
        cases hfield

theorem run_record_list (hblanks : Blank blanks) (rest : List Char) :
    (record fields s).run (blanks ++ '[' :: rest) = (items fields true s).run rest := by
  have hbracket : isBlank '[' = false := by decide
  simp [record, hblanks, hbracket]

theorem record_takesWhole (hfields : FieldsTakeWhole fields) (h : IsValue text) :
    TakesWhole (record fields s) text := by
  refine takesWhole_of_kinds rfl (.inl mismatch_refuses) (.inl ⟨mismatch_refuses, mismatch_refuses⟩)
    (.inl fun c hc => ?_) mismatch_refuses (.inl mismatch_refuses)
    (.inr fun gap ps hgap hps => ?_) (.inr fun gap ms hgap hms => ?_) h
  · split
    · cases hc
    · cases hc
    · exact mismatch_refuses
  · intro blanks rest a rest' hblanks _ hrun
    rw [List.cons_append, List.append_assoc, List.append_assoc, List.singleton_append,
      run_record_list hblanks] at hrun
    exact run_items_ok hfields hps hgap true rest hrun
  · intro blanks rest a rest' hblanks _ hrun
    rw [Member.object_append, run_record_object hblanks] at hrun
    exact (run_members_ok hfields hms hgap true rest hrun).1

theorem Accepts.wereRead (hfields : FieldsTakeWhole fields) {gap : List Char} (hgap : Blank gap)
    {ms : List Member} (hms : ∀ m ∈ ms, IsValue m.value)
    (h : Accepts (record fields s) (Member.object gap ms)) : WereRead fields ms := by
  obtain ⟨blanks, rest, r, hblanks, -, hrun⟩ := h
  rw [Member.object_append, run_record_object hblanks] at hrun
  exact (run_members_ok hfields hms hgap true rest hrun).2.2

end Record

end Postmortem.Json
