import Postmortem.Proofs.Json.Grammar

/-!
# Objects in any order

A record is read from the members of an object, in whatever order they come and whatever other
members are between them. No two members may name the same field: when a record is read, none did.
-/
namespace Postmortem.Json

open Reader

variable {α β σ : Type}

/-- The names of fields among those of the members, in their order. -/
def Member.named (fields : List (RecordField σ)) (members : List Member) : List String :=
  (members.map (·.name)).filter (· ∈ fields.map (·.name))

/-- Whether a text is an object with the given members. -/
structure IsObject (text : List Char) (members : List Member) : Prop where
  text_eq : ∃ gap, Blank gap ∧ text = Member.object gap members
  isValue : ∀ m ∈ members, IsValue m.value

section Members

variable {fields : List (RecordField σ)} {seen : List String} {s : σ} {blanks : List Char}
  {m : Member} {ms : List Member}

theorem name_of_find? {name : String} {field : RecordField σ}
    (h : fields.find? (·.name = name) = some field) : field.name = name := by
  simpa using List.find?_some h

theorem name_ne_of_find? {name : String} (h : fields.find? (·.name = name) = none) :
    ∀ field ∈ fields, field.name ≠ name := by
  simpa using List.find?_eq_none.mp h

theorem named_cons_of_field {field : RecordField σ}
    (h : fields.find? (·.name = m.name) = some field) :
    Member.named fields (m :: ms) = m.name :: Member.named fields ms := by
  have hmem : m.name ∈ fields.map (·.name) :=
    List.mem_map.mpr ⟨field, List.mem_of_find?_eq_some h, name_of_find? h⟩
  exact List.filter_cons_of_pos (decide_eq_true hmem)

theorem named_cons_of_other (h : fields.find? (·.name = m.name) = none) :
    Member.named fields (m :: ms) = Member.named fields ms := by
  have hmem : m.name ∉ fields.map (·.name) := by
    intro hmem
    obtain ⟨field, hfield, hname⟩ := List.mem_map.mp hmem
    exact name_ne_of_find? h field hfield hname
  exact List.filter_cons_of_neg (by simpa using hmem)

theorem mem_named {name : String} :
    name ∈ Member.named fields ms ↔
      (∃ m ∈ ms, m.name = name) ∧ ∃ field, fields.find? (·.name = name) = some field := by
  rw [← Option.isSome_iff_exists, List.isSome_find?]
  simp [Member.named]

/-- The next member of an object is read up to its name. -/
theorem run_members_next {isFirst : Bool} (hblanks : Blank blanks) (ps : List Padded)
    (rest : List Char) (n : Nat) :
    (members fields (n + 1) isFirst seen s).run
        (blanks ++ (Padded.joined isFirst (m.padded :: ps) ++ rest)) =
      (member fields seen s m.name >>= fun p => members fields n false p.1 p.2).run
        (m.gap ++ ':' :: (m.space ++ (m.value ++
          (m.after ++ (Padded.joined false ps ++ rest))))) := by
  have hseparates : Separates isFirst (blanks ++ (comma isFirst ++ m.before)) := by
    cases isFirst with
    | true => exact List.forall_mem_append.mpr ⟨hblanks, m.before_blank⟩
    | false => exact ⟨blanks, m.before, hblanks, m.before_blank, rfl⟩
  rw [Member.joined_cons_append, ← List.append_assoc,
    run_members_name _ hseparates m.isString.spells]

/-- A member with another name is passed over. -/
theorem run_member_other {rest : List Char} (hother : fields.find? (·.name = m.name) = none)
    (hvalue : IsValue m.value) (hrest : Delimits rest) :
    (member fields seen s m.name).run (m.gap ++ ':' :: (m.space ++ (m.value ++ rest))) =
      .ok ((seen, s), rest) := by
  have hcolon : isBlank ':' = false := by decide
  have hskip := hvalue.reads_skipValue m.space rest m.space_blank hrest
  simp [member, hother, m.gap_blank, hcolon, hskip]

/-- What members have to be for a record that is updated by their names: those that name a field
have a value that is read as the update, those with other names do nothing, and there are no two for
one field. -/
structure Updates (fields : List (RecordField σ)) (update : String → σ → σ)
    (members : List Member) : Prop where
  field : ∀ m ∈ members, ∀ field, fields.find? (·.name = m.name) = some field →
    ∀ s, Reads (field.read s) m.value (update m.name s)
  other : ∀ m ∈ members, fields.find? (·.name = m.name) = none → IsValue m.value
  unknown : ∀ name, fields.find? (·.name = name) = none → ∀ s, update name s = s
  nodup : (Member.named fields members).Nodup

theorem Updates.run_members {update : String → σ → σ} (h : Updates fields update ms)
    (hseen : ∀ name ∈ Member.named fields ms, name ∉ seen) (hblanks : Blank blanks)
    (isFirst : Bool) (rest : List Char) {n : Nat} (hn : ms.length < n) :
    (members fields n isFirst seen s).run
        (blanks ++ (Padded.joined isFirst (ms.map Member.padded) ++ '\x7d' :: rest)) =
      .ok (ms.foldl (fun s m => update m.name s) s, rest) := by
  induction ms generalizing seen s blanks isFirst n with
  | nil =>
    obtain ⟨n, rfl⟩ := Nat.exists_eq_succ_of_ne_zero (Nat.ne_of_gt hn)
    exact run_members_end rest hblanks
  | cons m ms ih =>
    obtain ⟨n, rfl⟩ := Nat.exists_eq_succ_of_ne_zero (Nat.ne_of_gt (Nat.zero_lt_of_lt hn))
    obtain ⟨hfield, hfields⟩ := List.forall_mem_cons.mp h.field
    obtain ⟨hother, hothers⟩ := List.forall_mem_cons.mp h.other
    have hdelimits := delimits_further (.inr rfl) m.after_blank (ms.map Member.padded) rest
    have hn := Nat.lt_of_succ_lt_succ hn
    have hnodup := h.nodup
    rw [List.map_cons, run_members_next hblanks, StateT.run_bind, List.foldl_cons]
    cases hfind : fields.find? (·.name = m.name) with
    | some field =>
      rw [named_cons_of_field hfind] at hseen hnodup
      obtain ⟨hnew, hseen⟩ := List.forall_mem_cons.mp hseen
      obtain ⟨hm, hnodup⟩ := List.nodup_cons.mp hnodup
      rw [run_member hfind hnew m.gap_blank m.space_blank (hfield field hfind s) hdelimits, ok_bind]
      refine ih ⟨hfields, hothers, h.unknown, hnodup⟩ (fun name hname => ?_) m.after_blank false hn
      exact List.not_mem_cons_of_ne_of_not_mem (fun heq => hm (heq ▸ hname)) (hseen name hname)
    | none =>
      rw [named_cons_of_other hfind] at hseen hnodup
      rw [run_member_other hfind (hother hfind) hdelimits, ok_bind, h.unknown _ hfind]
      exact ih ⟨hfields, hothers, h.unknown, hnodup⟩ hseen m.after_blank false hn

theorem run_record_object (hblanks : Blank blanks) (rest : List Char) :
    (record fields s).run (blanks ++ '\x7b' :: rest) =
      (members fields (rest.length + 1) true [] s).run rest := by
  have hbrace : isBlank '\x7b' = false := by decide
  simp [record, hblanks, hbrace]

/-- An object is read as a record by the updates that its members stand for. -/
theorem Updates.record_reads {update : String → σ → σ} (h : Updates fields update ms)
    {gap : List Char} (hgap : Blank gap) :
    Reads (record fields s) (Member.object gap ms) (ms.foldl (fun s m => update m.name s) s) := by
  intro blanks rest hblanks _
  have hcount := Member.length_le_joined ms true
  rw [Member.object_append, run_record_object hblanks]
  refine h.run_members (fun _ _ => List.not_mem_nil) hgap true rest ?_
  simp only [List.length_append]
  omega

/-- Whether members name the same fields as others in any order, by values that are the same in the
given sense. -/
structure Member.Rearranged (fields : List (RecordField σ))
    (same : String → List Char → List Char → Prop) (ms ms' : List Member) : Prop where
  names : (named fields ms).Perm (named fields ms')
  values : ∀ m ∈ ms, ∀ m' ∈ ms', m'.name = m.name → m.name ∈ fields.map (·.name) →
    same m.name m.value m'.value

section Rearranged

variable {update : String → σ → σ} {same : String → List Char → List Char → Prop}
  {ms' : List Member}

/-- Members that are rearranged are read as the same updates, if values that are the same are. -/
theorem Updates.rearranged (h : Updates fields update ms)
    (hre : Member.Rearranged fields same ms ms')
    (hsame : ∀ name text text', same name text text' →
      ∀ field, fields.find? (·.name = name) = some field →
        ∀ s s', Reads (field.read s) text s' → Reads (field.read s) text' s')
    (hother : ∀ m ∈ ms', IsValue m.value) : Updates fields update ms' where
  field m' hm' field hfind s := by
    have hmem : m'.name ∈ Member.named fields ms' := mem_named.mpr ⟨⟨m', hm', rfl⟩, field, hfind⟩
    obtain ⟨⟨m, hm, hname⟩, -⟩ := mem_named.mp (hre.names.mem_iff.mpr hmem)
    have hknown : m'.name ∈ fields.map (·.name) := by simpa using (List.mem_filter.mp hmem).2
    rw [← hname] at hfind hknown ⊢
    exact hsame _ _ _ (hre.values m hm m' hm' hname.symm hknown) field hfind s _
      (h.field m hm field hfind s)
  other m' hm' _ := hother m' hm'
  unknown := h.unknown
  nodup := hre.names.nodup_iff.mp h.nodup

/-- Names that are missing are also missing among members that are rearranged. -/
theorem Member.Rearranged.absent (hre : Member.Rearranged fields same ms ms')
    (hunknown : ∀ name, fields.find? (·.name = name) = none → ∀ s, update name s = s)
    (habsent : ∀ name, (∀ m ∈ ms, m.name ≠ name) → ∀ s, update name s = s) (name : String)
    (habsent' : ∀ m ∈ ms', m.name ≠ name) (s : σ) : update name s = s := by
  cases hfind : fields.find? (·.name = name) with
  | none => exact hunknown name hfind s
  | some field =>
    refine habsent name (fun m hm hname => ?_) s
    have hmem : name ∈ Member.named fields ms := mem_named.mpr ⟨⟨m, hm, hname⟩, field, hfind⟩
    obtain ⟨⟨m', hm', hname'⟩, -⟩ := mem_named.mp (hre.names.mem_iff.mp hmem)
    exact habsent' m' hm' hname'

/-- An object is read by its updates, whose order does not matter when they come to the same as one
change of a record. -/
theorem Updates.object_reads {change : σ → σ} {text : List Char} (h : Updates fields update ms)
    (hchange : ms.foldl (fun s m => update m.name s) s = change s)
    (hobject : IsObject text ms) : Reads (record fields s) text (change s) := by
  obtain ⟨gap, hgap, rfl⟩ := hobject.text_eq
  exact hchange ▸ h.record_reads hgap

theorem Updates.reads_rearranged {change : σ → σ} {text : List Char} (h : Updates fields update ms)
    (habsent : ∀ name, (∀ m ∈ ms, m.name ≠ name) → ∀ s, update name s = s)
    (hchange : ∀ members : List Member,
      (∀ name, (∀ m ∈ members, m.name ≠ name) → ∀ s, update name s = s) →
        ∀ s, members.foldl (fun s m => update m.name s) s = change s)
    (hre : Member.Rearranged fields same ms ms')
    (hsame : ∀ name text text', same name text text' →
      ∀ field, fields.find? (·.name = name) = some field →
        ∀ s s', Reads (field.read s) text s' → Reads (field.read s) text' s')
    (hobject : IsObject text ms') (s : σ) : Reads (record fields s) text (change s) :=
  (h.rearranged hre hsame hobject.isValue).object_reads
    (hchange ms' (hre.absent h.unknown habsent) s) hobject

end Rearranged

end Members

/-- A text is read as one thing only. -/
theorem Reader.Reads.unique {read : Reader α} {text : List Char} {a b : α} (ha : Reads read text a)
    (hb : Reads read text b) : a = b := by
  have hsame := (ha [] [] blank_nil delimits_nil).symm.trans (hb [] [] blank_nil delimits_nil)
  cases hsame
  rfl

/-! ## What an update leaves in a field -/

section Fold

variable (get : σ → α) {update : String → σ → σ} (name : String) (said : Option α)

theorem foldl_get (hget : ∀ other s, get (update other s) =
      if other = name then said.getD (get s) else get s) (members : List Member) (s : σ) :
    get (members.foldl (fun s m => update m.name s) s) =
      if ∃ m ∈ members, m.name = name then said.getD (get s) else get s := by
  induction members generalizing s with
  | nil => simp
  | cons m ms ih =>
    rw [List.foldl_cons, ih, hget]
    by_cases hm : m.name = name
    · cases said <;> simp [hm]
    · simp [hm]

/-- After updates by all names that there are, a field has the value that was said of it. -/
theorem foldl_get_of_absent (hget : ∀ other s, get (update other s) =
      if other = name then said.getD (get s) else get s) {members : List Member}
    (habsent : (∀ m ∈ members, m.name ≠ name) → ∀ s, update name s = s) (s : σ) :
    get (members.foldl (fun s m => update m.name s) s) = said.getD (get s) := by
  rw [foldl_get get name said hget]
  split
  · rfl
  · next hnone =>
    have hsame := habsent (fun m hm hname => hnone ⟨m, hm, hname⟩) s
    have hsaid := hget name s
    rw [hsame, if_pos rfl] at hsaid
    exact hsaid

end Fold

/-! ## Choices -/

section Choice

variable {choices : List (String × α)} {blanks spelling : List Char} {name : String}

theorem run_stringValue {blanks spelling : List Char} {name : String} (hblanks : Blank blanks)
    (h : Spells spelling name) (rest : List Char) :
    stringValue.run (blanks ++ '"' :: (spelling ++ '"' :: rest)) = .ok (name, rest) := by
  have hquote : isBlank '"' = false := by decide
  simp [stringValue, hblanks, hquote, h rest]

theorem null_reads : Reads null "null".toList () := by
  intro blanks rest hblanks _
  have hn : isBlank 'n' = false := by decide
  have hword := run_word "null".toList rest
  simp_all [null]

theorem run_choice_string (hblanks : Blank blanks) (h : Spells spelling name) (rest : List Char) :
    (choice choices).run (blanks ++ '"' :: (spelling ++ '"' :: rest)) =
      match choices.lookup name with
      | some a => .ok (a, rest)
      | none => .error .mismatched := by
  have hquote : isBlank '"' = false := by decide
  have hvalue := run_stringValue blank_nil h rest
  rw [List.nil_append] at hvalue
  rw [choice, StateT.run_bind, run_peekToken _ hblanks hquote, ok_bind]
  simp only [StateT.run_bind, hvalue, ok_bind]
  cases choices.lookup name with
  | none => rfl
  | some a => rfl

/-- A choice is written as its name in any spelling. -/
theorem choice_reads_string (h : Spells spelling name) {a : α} (ha : choices.lookup name = some a) :
    Reads (choice choices) ('"' :: (spelling ++ ['"'])) a := by
  intro blanks rest hblanks _
  rw [List.cons_append, List.append_assoc, List.singleton_append, run_choice_string hblanks h, ha]

theorem run_choice_object (hblanks : Blank blanks) (rest : List Char) :
    (choice choices).run (blanks ++ '\x7b' :: rest) =
      stringValue.run rest >>= fun r =>
        match choices.lookup r.1 with
        | some a => (do expectToken ':'; null; expectToken '\x7d'; return a : Reader α).run r.2
        | none => .error .mismatched := by
  have hbrace : isBlank '\x7b' = false := by decide
  rw [choice, StateT.run_bind, run_peekToken _ hblanks hbrace, ok_bind]
  simp only [StateT.run_bind, run_drop, ok_bind, List.tail_cons]
  cases stringValue.run rest with
  | error e => rfl
  | ok r =>
    simp only [ok_bind]
    cases choices.lookup r.1 with
    | none => rfl
    | some a => rfl

/-- The name in an object is that of its first member, and nothing but null may follow it. -/
theorem run_choice_member (hblanks : Blank blanks) {gap : List Char} (hgap : Blank gap) (m : Member)
    (ms : List Member) (rest : List Char) :
    (choice choices).run (blanks ++ (Member.object gap (m :: ms) ++ rest)) =
      match choices.lookup m.name with
      | some a => (do null; expectToken '\x7d'; return a : Reader α).run
          (m.space ++ (m.value ++
            (m.after ++ (Padded.joined false (ms.map Member.padded) ++ '\x7d' :: rest))))
      | none => .error .mismatched := by
  have hcolon : isBlank ':' = false := by decide
  have hfront : Blank (gap ++ (comma true ++ m.before)) :=
    List.forall_mem_append.mpr ⟨hgap, m.before_blank⟩
  rw [Member.object_append, run_choice_object hblanks, List.map_cons, Member.joined_cons_append,
    ← List.append_assoc, run_stringValue hfront m.isString.spells, ok_bind]
  cases choices.lookup m.name with
  | none => rfl
  | some a =>
    dsimp only
    rw [StateT.run_bind, run_expectToken _ m.gap_blank hcolon, ok_bind]

/-- A choice may be written as an object of its name and null. -/
theorem choice_reads_object {gap : List Char} (hgap : Blank gap) {m : Member}
    (hvalue : m.value = "null".toList) {a : α} (ha : choices.lookup m.name = some a) :
    Reads (choice choices) (Member.object gap [m]) a := by
  intro blanks rest hblanks _
  have hbrace : isBlank '\x7d' = false := by decide
  have hbehind := delimits_further (.inr rfl) m.after_blank [] rest
  have hnull := null_reads m.space _ m.space_blank hbehind
  rw [run_choice_member hblanks hgap, ha]
  dsimp only
  rw [StateT.run_bind, hvalue, List.map_nil, hnull, ok_bind]
  simp [Padded.joined, m.after_blank, hbrace]

end Choice

end Postmortem.Json
