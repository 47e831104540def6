import Mathlib
import Postmortem.Proofs.Debug.FunctionSearch

/-!
# Names that are found through references

An entry without a name may refer to another one, in its own unit or in a further one, and that one
to the next. These references form a chain that may never end. The name of a function is that of the
first entry of its chain that has one, if it comes soon enough; a function without such a name is
found all the same. What lies behind the last reference that is followed is not read.
-/
namespace Postmortem.Debug

/-- An entry with the unit that it is in. -/
abbrev Place := CompilationUnit × Entry

/-- What a reference of an entry counts from. -/
inductive Reference where
  | inUnit (offset : Nat)
  | inSection (offset : Nat)

/-- The reference that an attribute is. -/
def AttributeValue.reference? : AttributeValue → Option Reference
  | .unitReference o => some (.inUnit o)
  | .entryReference o => some (.inSection o)
  | _ => none

namespace Entry

/-- The value of the entry's name: of its plain one, or else of one of those for the linker. -/
def nameValue? (entry : Entry) : Option AttributeValue :=
  [AttributeName.name, AttributeName.linkageName, AttributeName.vendorLinkageName].findSome?
    (valueOf? entry.attributes)

/-- Where the entry's chain goes on: at its specification, or at its abstract origin where the
specification is no reference. -/
def reference? (entry : Entry) : Option Reference :=
  [AttributeName.specification, AttributeName.abstractOrigin].findSome? fun name =>
    (valueOf? entry.attributes name).bind AttributeValue.reference?

end Entry

/-- The first unit that reaches a place in the section, and where in the unit that is. -/
def holder? (s : DebugSections) (offset : Nat) : Option (Nat × Nat) :=
  (UnitHeader.readAll (.ofSection s.info)).1.findSome? fun h =>
    (h.localOffset? offset).map (h.start, ·)

/-- Where a reference leads that is made in a unit. -/
inductive Leads (s : DebugSections) (u : CompilationUnit) : Reference → Place → Prop
  | inUnit {offset : Nat} {entry : Entry} (hentry : u.entryAt offset = .ok entry) :
    Leads s u (.inUnit offset) (u, entry)
  | inSection {offset start within : Nat} {other : CompilationUnit} {entry : Entry}
    (hholder : holder? s offset = some (start, within))
    (hload : CompilationUnit.loadAt s start = .ok other)
    (hentry : other.entryAt within = .ok entry) : Leads s u (.inSection offset) (other, entry)

/-- A reference to a place that no unit reaches, although the headers of all units can be read. -/
inductive Dangles (s : DebugSections) : Reference → Prop
  | inSection {offset : Nat} (hholder : holder? s offset = none)
    (hheaders : (UnitHeader.readAll (.ofSection s.info)).2 = none) : Dangles s (.inSection offset)

/-- The entry that comes after another one in its chain. -/
def Refers (s : DebugSections) (p q : Place) : Prop :=
  ∃ r, p.2.reference? = some r ∧ Leads s p.1 r q

/-- The chain of `p` comes to `q` after so many references. -/
inductive Chain (s : DebugSections) : Nat → Place → Place → Prop
  | refl (p : Place) : Chain s 0 p p
  | step {k : Nat} {p q r : Place} (h : Refers s p q) (hrest : Chain s k q r) :
    Chain s (k + 1) p r

/-- The entry has a name of its own, with this text. -/
def HasName (s : DebugSections) (p : Place) (name : String) : Prop :=
  ∃ v text, p.2.nameValue? = some v ∧ s.textOf p.1.bases v = .ok text ∧ name = Text.lossy text

/-- The name of the first entry of the chain that has one, when at most `n` references lead to
it. -/
inductive NearestName (s : DebugSections) (n : Nat) (p : Place) : Option String → Prop
  | named {k : Nat} {q : Place} {name : String} (hk : k ≤ n) (hq : Chain s k p q)
    (hname : HasName s q name)
    (hbefore : ∀ j < k, ∀ other, Chain s j p other → other.2.nameValue? = none) :
    NearestName s n p (some name)
  | unnamed (hnone : ∀ k ≤ n, ∀ q, Chain s k p q → q.2.nameValue? = none) :
    NearestName s n p none

/-- The attributes of the entry can be decoded, and its name if it has one. -/
structure HasReadableName (s : DebugSections) (p : Place) : Prop where
  attributes : ∃ rest, p.2.after = .ok rest
  name : ∀ v, p.2.nameValue? = some v → ∃ text, s.textOf p.1.bases v = .ok text

/-- What can be decoded of the chain for `n` references to be followed: the entries up to there,
and each of these references that is made by an entry without a name. -/
structure HasReadableChain (s : DebugSections) (n : Nat) (p : Place) : Prop where
  entries : ∀ k ≤ n, ∀ q, Chain s k p q → HasReadableName s q
  references : ∀ k < n, ∀ q, Chain s k p q → q.2.nameValue? = none →
    ∀ r, q.2.reference? = some r → (∃ next, Leads s q.1 r next) ∨ Dangles s r

variable {s : DebugSections} {n : Nat} {p q : Place}

/-! ## Chains -/

theorem Leads.unique {u : CompilationUnit} {r : Reference} {q q' : Place} (h : Leads s u r q)
    (h' : Leads s u r q') : q = q' := by
  cases h with
  | inUnit hentry =>
    cases h' with
    | inUnit hentry' => rw [Except.ok.inj (hentry.symm.trans hentry')]
  | inSection hholder hload hentry =>
    cases h' with
    | inSection hholder' hload' hentry' =>
      cases hholder.symm.trans hholder'
      obtain rfl := Except.ok.inj (hload.symm.trans hload')
      rw [Except.ok.inj (hentry.symm.trans hentry')]

theorem Dangles.not_leads {u : CompilationUnit} {r : Reference} (h : Dangles s r) :
    ¬ Leads s u r q := by
  cases h with
  | inSection hholder _ =>
    rintro (_ | ⟨hholder', _, _⟩)
    exact nomatch hholder.symm.trans hholder'

/-- A chain goes on in one way only. -/
theorem Refers.unique {q' : Place} (h : Refers s p q) (h' : Refers s p q') : q = q' := by
  obtain ⟨r, hr, hleads⟩ := h
  obtain ⟨r', hr', hleads'⟩ := h'
  obtain rfl := Option.some.inj (hr.symm.trans hr')
  exact hleads.unique hleads'

theorem chain_zero_iff {q : Place} : Chain s 0 p q ↔ q = p := by
  constructor
  · rintro ⟨⟩
    rfl
  · rintro rfl
    exact .refl q

/-- Behind an entry the chain is that of the entry it refers to. -/
theorem Refers.chain_succ_iff (h : Refers s p q) {k : Nat} {r : Place} :
    Chain s (k + 1) p r ↔ Chain s k q r := by
  constructor
  · rintro (_ | ⟨h', hrest⟩)
    rwa [h.unique h']
  · exact .step h

theorem HasReadableChain.tail (h : HasReadableChain s (n + 1) p) (hq : Refers s p q) :
    HasReadableChain s n q where
  entries k hk r hr := h.entries (k + 1) (by omega) r (.step hq hr)
  references k hk r hr := h.references (k + 1) (by omega) r (.step hq hr)

theorem NearestName.here {name : String} (h : HasName s p name) : NearestName s n p (some name) :=
  .named (Nat.zero_le n) (.refl p) h fun _ hj => absurd hj (Nat.not_lt_zero _)

theorem NearestName.cons {found : Option String} (hnone : p.2.nameValue? = none)
    (hq : Refers s p q) (h : NearestName s n q found) : NearestName s (n + 1) p found := by
  cases h with
  | named hk hchain hname hbefore =>
    refine .named (Nat.succ_le_succ hk) (.step hq hchain) hname fun j hj other hother => ?_
    cases j with
    | zero => rwa [chain_zero_iff.mp hother]
    | succ j => exact hbefore j (by omega) other (hq.chain_succ_iff.mp hother)
  | unnamed h =>
    refine .unnamed fun k hk other hother => ?_
    cases k with
    | zero => rwa [chain_zero_iff.mp hother]
    | succ k => exact h k (by omega) other (hq.chain_succ_iff.mp hother)

/-- An entry without a name at which the chain ends, or is not followed further. -/
theorem NearestName.last (hnone : p.2.nameValue? = none) (hlast : n = 0 ∨ ∀ q, ¬ Refers s p q) :
    NearestName s n p none := by
  refine .unnamed fun k hk other hother => ?_
  cases hother with
  | refl => exact hnone
  | step h _ =>
    obtain rfl | hend := hlast
    · cases hk
    · exact absurd h (hend _)

/-! ## What is read of an entry -/

namespace Entry

variable {u : CompilationUnit} {entry : Entry} {c : Cursor}

theorem firstValue?_eq (hafter : entry.after = .ok c) (names : List Nat) :
    entry.firstValue? names = .ok (names.findSome? (valueOf? entry.attributes)) := by
  induction names with
  | nil => rfl
  | cons name names ih =>
    rw [firstValue?, value?_eq hafter, ok_bind, List.findSome?_cons]
    cases valueOf? entry.attributes name with
    | some v => rfl
    | none => exact ih

theorem ownName?_of_nameless (hafter : entry.after = .ok c) (hnone : entry.nameValue? = none) :
    entry.ownName? s u = .ok none := by
  rw [ownName?, firstValue?_eq hafter, ok_bind, ← nameValue?, hnone]
  rfl

theorem ownName?_of_named (hafter : entry.after = .ok c) {v : AttributeValue} {text : Bytes}
    (hv : entry.nameValue? = some v) (htext : s.textOf u.bases v = .ok text) :
    entry.ownName? s u = .ok (some (Text.lossy text)) := by
  rw [ownName?, firstValue?_eq hafter, ok_bind, ← nameValue?, hv]
  show (s.textOf u.bases v >>= _) = _
  rw [htext]
  rfl

/-- Where a reference leads, by the way units are loaded. -/
def follow? (s : DebugSections) (u : CompilationUnit) :
    Reference → Except DebugError (Option Place)
  | .inUnit o => do return some (u, ← u.entryAt o)
  | .inSection o => locate? (CompilationUnit.loadAt s) s o

theorem referent?_eq (hafter : entry.after = .ok c) (names : List Nat) :
    entry.referent? (CompilationUnit.loadAt s) s u names =
      match names.findSome? fun name =>
          (valueOf? entry.attributes name).bind AttributeValue.reference? with
      | some r => follow? s u r
      | none => .ok none := by
  induction names with
  | nil => rfl
  | cons name names ih =>
    rw [referent?, value?_eq hafter]
    show (Except.ok (valueOf? entry.attributes name) >>= _) = _
    rw [ok_bind, List.findSome?_cons]
    cases valueOf? entry.attributes name with
    | none => exact ih
    | some v =>
      cases v with
      | unitReference o => rfl
      | entryReference o => rfl
      | _ => exact ih

theorem follow?_of_leads {r : Reference} {q : Place} (h : Leads s u r q) :
    follow? s u r = .ok (some q) := by
  cases h with
  | inUnit hentry =>
    rw [follow?, hentry]
    rfl
  | inSection hholder hload hentry =>
    unfold holder? at hholder
    simp only [follow?, locate?, hholder, hload, ok_bind, hentry]
    rfl

theorem follow?_of_dangles {r : Reference} (h : Dangles s r) : follow? s u r = .ok none := by
  cases h with
  | inSection hholder hheaders =>
    unfold holder? at hholder
    simp only [follow?, locate?, hholder, hheaders]
    rfl

/-! ## The name of an entry -/

/-- An entry with a name has that name, however many references may be followed. -/
theorem name?_of_named {v : AttributeValue} (h : HasReadableName s p)
    (hv : p.2.nameValue? = some v) (n : Nat) :
    ∃ found, name? (CompilationUnit.loadAt s) s n p.1 p.2 = .ok found ∧
      NearestName s n p found := by
  obtain ⟨c, hafter⟩ := h.attributes
  obtain ⟨text, htext⟩ := h.name v hv
  have hown := ownName?_of_named hafter hv htext
  refine ⟨some (Text.lossy text), ?_, .here ⟨v, text, hv, htext, rfl⟩⟩
  cases n <;> rw [name?, hown] <;> rfl

theorem name?_zero_of_nameless (h : HasReadableName s p) (hv : p.2.nameValue? = none) :
    name? (CompilationUnit.loadAt s) s 0 p.1 p.2 = .ok none := by
  obtain ⟨c, hafter⟩ := h.attributes
  rw [name?, ownName?_of_nameless hafter hv]
  rfl

theorem name?_succ_of_nameless (h : HasReadableName s p) (hv : p.2.nameValue? = none) (n : Nat) :
    name? (CompilationUnit.loadAt s) s (n + 1) p.1 p.2 =
      match p.2.reference? with
      | none => .ok none
      | some r => do
        match ← follow? s p.1 r with
        | some (u', entry') => name? (CompilationUnit.loadAt s) s n u' entry'
        | none => return none := by
  obtain ⟨c, hafter⟩ := h.attributes
  rw [name?, ownName?_of_nameless hafter hv]
  show (p.2.referent? (CompilationUnit.loadAt s) s p.1 _ >>= _) = _
  rw [referent?_eq hafter, ← reference?]
  cases p.2.reference? <;> rfl

/-- The name that is found through at most `n` references is the nearest one on the chain. -/
theorem name?_nearestName (h : HasReadableChain s n p) :
    ∃ found, name? (CompilationUnit.loadAt s) s n p.1 p.2 = .ok found ∧
      NearestName s n p found := by
  induction n generalizing p with
  | zero =>
    have hp := h.entries 0 le_rfl p (.refl p)
    cases hv : p.2.nameValue? with
    | some v => exact name?_of_named hp hv 0
    | none => exact ⟨none, name?_zero_of_nameless hp hv, .last hv (.inl rfl)⟩
  | succ n ih =>
    have hp := h.entries 0 (Nat.zero_le _) p (.refl p)
    cases hv : p.2.nameValue? with
    | some v => exact name?_of_named hp hv (n + 1)
    | none =>
      rw [name?_succ_of_nameless hp hv]
      cases hr : p.2.reference? with
      | none =>
        refine ⟨none, rfl, .last hv (.inr fun q ⟨r, hsome, _⟩ => ?_)⟩
        exact nomatch hr.symm.trans hsome
      | some r =>
        show ∃ found, (follow? s p.1 r >>= _) = _ ∧ _
        obtain ⟨q, hleads⟩ | hdangles := h.references 0 (Nat.succ_pos n) p (.refl p) hv r hr
        · have hq : Refers s p q := ⟨r, hr, hleads⟩
          obtain ⟨found, hfound, hnearest⟩ := ih (h.tail hq)
          rw [follow?_of_leads hleads, ok_bind]
          exact ⟨found, hfound, hnearest.cons hv hq⟩
        · rw [follow?_of_dangles hdangles, ok_bind]
          refine ⟨none, rfl, .last hv (.inr ?_)⟩
          rintro q ⟨r', hr', hleads⟩
          obtain rfl := Option.some.inj (hr.symm.trans hr')
          exact hdangles.not_leads hleads

end Entry

/-! ## The function and its name -/

namespace CompilationUnit

variable {u : CompilationUnit} {address : Nat}

theorem HasFirstFunction.tail {entry : Entry} {entries : List Entry} {i start : Nat}
    (h : u.HasFirstFunction s address (entry :: entries) (i + 1) start) :
    u.HasFirstFunction s address entries i start where
  found := (hasFunction_cons_succ i start).mp h.found
  skipped j hj other hother :=
    h.skipped (j + 1) (by omega) other ((hasFunction_cons_succ j other).mpr hother)

/-- The first function that covers the address is the answer, by the name that is found for it or as
an unknown one. -/
theorem searchEntries_of_hasFirstFunction {entries : List Entry} (ending : Option DebugError)
    (hafter : ∀ entry ∈ entries, ∃ rest, entry.after = .ok rest)
    (hcode : ∀ entry ∈ entries, entry.tag = Entry.functionTag → entry.HasReadableCode s u)
    {i start : Nat} (hfirst : u.HasFirstFunction s address entries i start) {entry : Entry}
    (hentry : entries[i]? = some entry) {found : Option String}
    (hname : Entry.name? (loadAt s) s maxNameReferences u entry = .ok found) :
    searchEntries (loadAt s) s u address ending entries =
      .ok (some { name := found.getD unknownName, start, displacement := address - start,
                  unit := u.header.start }) := by
  induction entries generalizing i with
  | nil => simp at hentry
  | cons head rest ih =>
    have hmem : head ∈ head :: rest := List.mem_cons_self
    obtain ⟨c, hc⟩ := hafter head hmem
    cases i with
    | zero =>
      obtain rfl : head = entry := by simpa using hentry
      exact searchEntries_found hc (hcode head hmem) hfirst.found hname ending
    | succ i =>
      rw [searchEntries_skip hc (hcode head hmem) (hfirst.skipped 0 (Nat.succ_pos i))]
      exact ih (fun e he => hafter e (List.mem_cons_of_mem _ he))
        (fun e he => hcode e (List.mem_cons_of_mem _ he)) hfirst.tail (by simpa using hentry)

end CompilationUnit

/-- The search for the function at an address comes to the entry of `p`, whose code starts at
`start`; the entries of its unit can be decoded, and the code of those that are functions. -/
structure DebugInfo.ComesTo (d : DebugInfo) (address : Nat) (p : Place) (start : Nat) : Prop where
  unit : ∃ r, d.index.HasFirst address r ∧ CompilationUnit.loadAt d.sections r.unit = .ok p.1
  ending : p.1.entries.2 = none
  code : ∀ entry ∈ p.1.entries.1, entry.tag = Entry.functionTag →
    entry.HasReadableCode d.sections p.1
  first : ∃ i, p.1.entries.1[i]? = some p.2 ∧
    p.1.HasFirstFunction d.sections address p.1.entries.1 i start

theorem DebugInfo.ComesTo.function?_eq {d : DebugInfo} {address start : Nat}
    (h : d.ComesTo address p start) {found : Option String}
    (hname : Entry.name? (CompilationUnit.loadAt d.sections) d.sections maxNameReferences p.1 p.2 =
      .ok found) :
    d.function? address = .ok (some {
      name := found.getD unknownName, start, displacement := address - start
      unit := p.1.header.start }) := by
  obtain ⟨r, hr, hload⟩ := h.unit
  obtain ⟨i, hentry, hfirst⟩ := h.first
  unfold function? searchFunction
  rw [(d.index.find?_eq_some_iff address r).mpr hr]
  show (CompilationUnit.loadAt d.sections r.unit >>= _) = _
  rw [hload, ok_bind, CompilationUnit.function?]
  exact CompilationUnit.searchEntries_of_hasFirstFunction _ (Entry.after_of_readAll h.ending) h.code
    hfirst hentry hname

/-- The search for a name ends on every chain, the endless ones included, and needs of it only what
at most eight references lead to. It finds the nearest name, and the function at an address has that
name; without one it is unknown, but it starts at the same place. -/
theorem Entry.nearestName_of_chain (s : DebugSections) (p : Place)
    (h : HasReadableChain s maxNameReferences p) :
    ∃ found,
      name? (CompilationUnit.loadAt s) s maxNameReferences p.1 p.2 = .ok found ∧
      NearestName s maxNameReferences p found ∧
      ∀ (index : AddressIndex) (address start : Nat),
        DebugInfo.ComesTo ⟨s, index⟩ address p start →
        DebugInfo.function? ⟨s, index⟩ address = .ok (some {
          name := found.getD unknownName, start, displacement := address - start
          unit := p.1.header.start }) := by
  obtain ⟨found, hfound, hnearest⟩ := name?_nearestName h
  exact ⟨found, hfound, hnearest, fun _ _ _ hcomes => hcomes.function?_eq hfound⟩

/-! ## A function that refers to itself -/

namespace SelfReference

def sections : DebugSections where
  info := ⟨#[0x13, 0, 0, 0, 4, 0, 0, 0, 0, 0, 4,
    1,
    2, 0x0c, 0, 0, 0, 0, 0x10, 0, 0, 0x10,
    0]⟩
  abbreviations := ⟨#[1, 0x11, 1, 0, 0,
    2, 0x2e, 0, 0x47, 0x10, 0x11, 0x01, 0x12, 0x0b, 0, 0,
    0]⟩
  addresses := .empty
  addressRanges := .empty
  lines := .empty
  lineTexts := .empty
  ranges := .empty
  rangeLists := .empty
  texts := .empty
  textOffsets := .empty

def rootAbbreviation : Abbreviation := ⟨1, 0x11, []⟩

def functionAbbreviation : Abbreviation :=
  ⟨2, 0x2e, [⟨0x47, 0x10, none⟩, ⟨0x11, 0x01, none⟩, ⟨0x12, 0x0b, none⟩]⟩

def abbreviations : Abbreviations :=
  ((∅ : Abbreviations).insert 1 rootAbbreviation).insert 2 functionAbbreviation

def encoding : Encoding := ⟨false, 4, 4⟩

def header : UnitHeader := ⟨0, encoding, 0, ⟨sections.info, 11, 23⟩⟩

def root : Entry := ⟨0x11, [], .ok ⟨sections.info, 12, 23⟩⟩

def function : Entry where
  tag := 0x2e
  attributes := [⟨0x47, .entryReference 12⟩, ⟨0x11, .address 0x1000⟩, ⟨0x12, .constant 0x10⟩]
  after := .ok ⟨sections.info, 22, 23⟩

def unit : CompilationUnit where
  header
  abbreviations
  root
  bases := { encoding }
  lowAddress := 0
  lineHeader := none

theorem readAt_abbreviations :
    Abbreviations.readAt sections.abbreviations 0 = .ok abbreviations := by
  have hroot : Abbreviation.read ⟨sections.abbreviations, 0, 17⟩ =
      .ok (some rootAbbreviation, ⟨sections.abbreviations, 5, 17⟩) := by cbv
  have hfunction : Abbreviation.read ⟨sections.abbreviations, 5, 17⟩ =
      .ok (some functionAbbreviation, ⟨sections.abbreviations, 16, 17⟩) := by cbv
  have hend : Abbreviation.read ⟨sections.abbreviations, 16, 17⟩ =
      .ok (none, ⟨sections.abbreviations, 17, 17⟩) := by cbv
  show Abbreviations.readFrom ∅ ⟨sections.abbreviations, 0, 17⟩ = _
  simp [Abbreviations.readFrom, hroot, hfunction, hend, Cursor.remaining, rootAbbreviation,
    functionAbbreviation, abbreviations]

theorem read_root : Entry.read encoding abbreviations ⟨sections.info, 11, 23⟩ =
    .ok (some root, ⟨sections.info, 12, 23⟩) := by
  have hcode : Decoder.unsigned ⟨sections.info, 11, 23⟩ = .ok (1, ⟨sections.info, 12, 23⟩) := by cbv
  have habbreviation : abbreviations[1]? = some rootAbbreviation := by
    simp [abbreviations, Std.HashMap.getElem_insert]
  rw [Entry.read_eq hcode (by decide) habbreviation]
  cbv

theorem read_function : Entry.read encoding abbreviations ⟨sections.info, 12, 23⟩ =
    .ok (some function, ⟨sections.info, 13, 23⟩) := by
  have hcode : Decoder.unsigned ⟨sections.info, 12, 23⟩ = .ok (2, ⟨sections.info, 13, 23⟩) := by cbv
  have habbreviation : abbreviations[2]? = some functionAbbreviation := by
    simp [abbreviations]
  rw [Entry.read_eq hcode (by decide) habbreviation]
  cbv

theorem entries_unit : unit.entries = ([root, function], none) := by
  have hend : Entry.read encoding abbreviations ⟨sections.info, 22, 23⟩ =
      .ok (none, ⟨sections.info, 23, 23⟩) := rfl
  show Entry.readAll encoding abbreviations header.entries = _
  simp [Entry.readAll, read_root, read_function, hend, header, Cursor.remaining, Cursor.atEnd,
    root, function]

theorem loadAt_zero : CompilationUnit.loadAt sections 0 = .ok unit := by
  have hskip : Decoder.skip 0 (.ofSection sections.info) = .ok ((), .ofSection sections.info) := rfl
  have habbreviations : Abbreviations.readAt sections.abbreviations header.abbreviationsAt =
      .ok abbreviations := readAt_abbreviations
  have hroot : CompilationUnit.firstEntry header.encoding abbreviations header.entries =
      .ok root := by
    simp [CompilationUnit.firstEntry, header, read_root, Cursor.atEnd]
  have hload : CompilationUnit.load sections header = .ok unit := by
    rw [CompilationUnit.load, habbreviations, ok_bind, hroot]
    rfl
  have hheader : Decoder.readAt UnitHeader.read (.ofSection sections.info) = .ok header := by cbv
  rw [CompilationUnit.loadAt, hskip, ok_bind]
  show (Decoder.readAt UnitHeader.read (.ofSection sections.info) >>= _) = _
  rw [hheader, ok_bind, hload]

/-- The function is what its specification leads to. -/
theorem refers_self : Refers sections (unit, function) (unit, function) := by
  have hheaders : UnitHeader.readAll (.ofSection sections.info) = ([header], none) := by cbv
  have hholder : holder? sections 12 = some (0, 12) := by
    rw [holder?, hheaders]
    rfl
  have hentry : unit.entryAt 12 = .ok function := by
    have hat : unit.header.entryAt? 12 = some ⟨sections.info, 12, 23⟩ := rfl
    have hread : Decoder.readAt (Entry.read unit.encoding unit.abbreviations)
        ⟨sections.info, 12, 23⟩ = .ok (some function) := by
      show (Entry.read encoding abbreviations ⟨sections.info, 12, 23⟩).map _ = _
      rw [read_function]
      rfl
    rw [CompilationUnit.entryAt, hat]
    simp only [hread]
  exact ⟨.inSection 12, rfl, .inSection hholder loadAt_zero hentry⟩

theorem eq_of_chain {k : Nat} {q : Place} (h : Chain sections k (unit, function) q) :
    q = (unit, function) := by
  induction k with
  | zero => exact chain_zero_iff.mp h
  | succ k ih => exact ih (refers_self.chain_succ_iff.mp h)

theorem hasReadableChain (n : Nat) : HasReadableChain sections n (unit, function) where
  entries _ _ q hq := by
    obtain rfl := eq_of_chain hq
    exact ⟨⟨_, rfl⟩, fun v hv => nomatch hv⟩
  references _ _ q hq _ r hr := by
    obtain rfl := eq_of_chain hq
    obtain ⟨r', hr', hleads⟩ := refers_self
    obtain rfl := Option.some.inj (hr.symm.trans hr')
    exact .inl ⟨_, hleads⟩

def index : AddressIndex := ⟨[⟨0x1000, 0x1010, 0⟩]⟩

theorem comesTo : DebugInfo.ComesTo ⟨sections, index⟩ 0x100a (unit, function) 0x1000 where
  unit := by
    refine ⟨⟨0x1000, 0x1010, 0⟩, ⟨⟨by decide, by decide⟩, [], [], rfl, ?_⟩, loadAt_zero⟩
    exact fun _ h => nomatch h
  ending := by rw [entries_unit]
  code := by
    rw [entries_unit]
    intro entry hentry htag
    obtain rfl | rfl : entry = root ∨ entry = function := by simpa using hentry
    · cases htag
    · exact ⟨⟨_, rfl⟩, fun h => nomatch h⟩
  first := by
    rw [entries_unit]
    have hspans : function.Spans sections unit 0x1000 0x1010 :=
      ⟨⟨_, rfl, rfl⟩, _, rfl, .length (n := 0x10) rfl⟩
    refine ⟨1, rfl, ⟨function, rfl, rfl, .bounds hspans (by decide) (by decide)⟩, ?_⟩
    rintro j hj other ⟨entry, hentry, htag, _⟩
    obtain rfl : j = 0 := by omega
    obtain rfl := Option.some.inj hentry
    cases htag

/-- Ten bytes into it, the function is found without a name. -/
theorem function?_unknown :
    NearestName sections maxNameReferences (unit, function) none ∧
    DebugInfo.function? ⟨sections, index⟩ 0x100a = .ok (some ⟨"??", 0x1000, 0xa, 0⟩) := by
  obtain ⟨found, -, hnearest, hfunction⟩ :=
    Entry.nearestName_of_chain sections (unit, function) (hasReadableChain _)
  cases hnearest with
  | named _ hchain hname _ =>
    obtain ⟨v, text, hv, _⟩ := hname
    obtain rfl := eq_of_chain hchain
    cases hv
  | unnamed hnone => exact ⟨.unnamed hnone, hfunction index 0x100a 0x1000 comesTo⟩

end SelfReference

end Postmortem.Debug
