import Mathlib
import Postmortem.Debug.Basic
import Postmortem.Proofs.Debug.EntryCode

/-!
# The function that is found at an address

The index leads to one unit, and in that unit the first function counts whose code contains the
address. As long as nothing on the way is broken the search answers, and what it finds starts at or
before the address.
-/
namespace Postmortem.Debug

/-! ## Where a unit starts -/

theorem Decoder.ok_of_bind {α β : Type} {x : Decoder α} {f : α → Decoder β} {c : Cursor}
    {r : β × Cursor} (h : (x >>= f) c = .ok r) :
    ∃ a c', x c = .ok (a, c') ∧ f a c' = .ok r := by
  obtain ⟨⟨a, c'⟩, hx, hf⟩ := Postmortem.ok_of_bind h
  exact ⟨a, c', hx, hf⟩

theorem Decoder.ok_of_readAt {α : Type} {d : Decoder α} {c : Cursor} {a : α}
    (h : Decoder.readAt d c = .ok a) : ∃ c', d c = .ok (a, c') := by
  unfold readAt at h
  cases hd : d c with
  | error => simp [hd, Except.map] at h
  | ok r =>
    simp only [hd, Except.map, Except.ok.injEq] at h
    exact ⟨r.2, by rw [← h]⟩

theorem UnitHeader.start_of_readBody {start : Nat} {wide : Bool} {h : UnitHeader} {c c' : Cursor}
    (hread : readBody start wide c = .ok (h, c')) : h.start = start := by
  obtain ⟨version, _, _, hread⟩ := Decoder.ok_of_bind hread
  split at hread
  · obtain ⟨_, _, _, hread⟩ := Decoder.ok_of_bind hread
    obtain ⟨_, _, _, hread⟩ := Decoder.ok_of_bind hread
    obtain ⟨_, _, _, hread⟩ := Decoder.ok_of_bind hread
    cases hread
    rfl
  · split at hread
    · obtain ⟨type, _, _, hread⟩ := Decoder.ok_of_bind hread
      obtain ⟨addressSize, _, _, hread⟩ := Decoder.ok_of_bind hread
      obtain ⟨_, _, _, hread⟩ := Decoder.ok_of_bind hread
      cases hextra : extraSize? (Encoding.offsetSize { wide, version, addressSize }) type with
      | none =>
        rw [hextra] at hread
        cases hread
      | some n =>
        rw [hextra] at hread
        obtain ⟨_, _, _, hread⟩ := Decoder.ok_of_bind hread
        obtain ⟨_, _, _, hread⟩ := Decoder.ok_of_bind hread
        cases hread
        rfl
    · cases hread

theorem UnitHeader.start_of_read {h : UnitHeader} {c : Cursor}
    (hread : Decoder.readAt read c = .ok h) : h.start = c.position := by
  obtain ⟨c', hread⟩ := Decoder.ok_of_readAt hread
  obtain ⟨_, _, hget, hread⟩ := Decoder.ok_of_bind hread
  cases hget
  obtain ⟨_, _, _, hread⟩ := Decoder.ok_of_bind hread
  obtain ⟨_, _, _, hread⟩ := Decoder.ok_of_bind hread
  obtain ⟨header, hbody, hread⟩ := Postmortem.ok_of_bind hread
  cases hread
  obtain ⟨_, hbody⟩ := Decoder.ok_of_readAt hbody
  exact start_of_readBody hbody

theorem CompilationUnit.header_of_load {s : DebugSections} {u : CompilationUnit} {h : UnitHeader}
    (hload : load s h = .ok u) : u.header = h := by
  obtain ⟨_, _, hload⟩ := ok_of_bind hload
  obtain ⟨_, _, hload⟩ := ok_of_bind hload
  obtain ⟨_, _, hload⟩ := ok_of_bind hload
  dsimp only at hload
  split at hload
  · obtain ⟨_, _, hload⟩ := ok_of_bind hload
    split at hload
    · obtain ⟨_, _, hload⟩ := ok_of_bind hload
      obtain rfl := Except.ok.inj hload
      rfl
    · obtain ⟨_, _, hload⟩ := ok_of_bind hload
      obtain ⟨_, _, hload⟩ := ok_of_bind hload
      obtain rfl := Except.ok.inj hload
      rfl
  · obtain ⟨_, _, hload⟩ := ok_of_bind hload
    obtain ⟨_, _, hload⟩ := ok_of_bind hload
    split at hload
    · obtain ⟨_, _, hload⟩ := ok_of_bind hload
      obtain rfl := Except.ok.inj hload
      rfl
    · obtain ⟨_, _, hload⟩ := ok_of_bind hload
      obtain ⟨_, _, hload⟩ := ok_of_bind hload
      obtain rfl := Except.ok.inj hload
      rfl

/-- The unit that is loaded from an offset starts there. -/
theorem CompilationUnit.start_of_loadAt {s : DebugSections} {u : CompilationUnit} {start : Nat}
    (h : loadAt s start = .ok u) : u.header.start = start := by
  obtain ⟨⟨⟨⟩, c⟩, hskip, h⟩ := ok_of_bind h
  obtain ⟨header, hheader, h⟩ := ok_of_bind h
  have hposition : c.position = start := by
    unfold Decoder.skip at hskip
    split at hskip
    · cases hskip
      simp [Cursor.ofSection]
    · cases hskip
  rw [header_of_load h, UnitHeader.start_of_read hheader, hposition]

/-! ## The first function of a unit -/

namespace CompilationUnit

/-- The entry at position `i` is a function whose code contains the address and starts at
`start`. -/
def HasFunction (u : CompilationUnit) (s : DebugSections) (address : Nat) (entries : List Entry)
    (i start : Nat) : Prop :=
  ∃ entry, entries[i]? = some entry ∧ entry.tag = Entry.functionTag ∧
    entry.Covers s u address start

/-- The first such function is at position `i`. -/
structure HasFirstFunction (u : CompilationUnit) (s : DebugSections) (address : Nat)
    (entries : List Entry) (i start : Nat) : Prop where
  found : u.HasFunction s address entries i start
  skipped : ∀ j < i, ∀ other, ¬ u.HasFunction s address entries j other

/-- What a search of the entries has to answer: the first function there is, by whatever name. -/
inductive Answers (u : CompilationUnit) (s : DebugSections) (address : Nat)
    (entries : List Entry) : Option FunctionMatch → Prop
  | none (h : ∀ i start, ¬ u.HasFunction s address entries i start) :
      u.Answers s address entries none
  | some {i start : Nat} (name : String) (h : u.HasFirstFunction s address entries i start) :
      u.Answers s address entries
        (some { name, start, displacement := address - start, unit := u.header.start })

/-- What is read of an entry that is a function can be decoded: its code, and its name if the code
contains the address. -/
structure CanRead (u : CompilationUnit) (s : DebugSections) (address : Nat) (entry : Entry) :
    Prop where
  code : entry.HasReadableCode s u
  name : ∀ start, entry.Covers s u address start →
    ∃ name, Entry.name? (loadAt s) s maxNameReferences u entry = .ok name

/-- The entries of the unit can be decoded, and what is read of those that are functions. -/
structure CanSearch (u : CompilationUnit) (s : DebugSections) (address : Nat) : Prop where
  ending : u.entries.2 = none
  functions : ∀ entry ∈ u.entries.1, entry.tag = Entry.functionTag → u.CanRead s address entry

variable {s : DebugSections} {u : CompilationUnit} {address : Nat} {entry : Entry}
  {entries : List Entry}

@[simp] theorem hasFunction_cons_succ (i start : Nat) :
    u.HasFunction s address (entry :: entries) (i + 1) start ↔
      u.HasFunction s address entries i start := by
  simp [HasFunction]

/-- An entry that does not count moves the first function by one position. -/
theorem HasFirstFunction.cons {i start : Nat}
    (hentry : ∀ other, ¬ u.HasFunction s address (entry :: entries) 0 other)
    (h : u.HasFirstFunction s address entries i start) :
    u.HasFirstFunction s address (entry :: entries) (i + 1) start := by
  refine ⟨(hasFunction_cons_succ i start).mpr h.found, fun j hj other hother => ?_⟩
  cases j with
  | zero => exact hentry other hother
  | succ j => exact h.skipped j (by omega) other ((hasFunction_cons_succ j other).mp hother)

/-- Where neither the first entry nor a later one counts, none does. -/
theorem not_hasFunction_cons
    (hentry : ∀ other, ¬ u.HasFunction s address (entry :: entries) 0 other)
    (h : ∀ i start, ¬ u.HasFunction s address entries i start) (i start : Nat) :
    ¬ u.HasFunction s address (entry :: entries) i start := by
  cases i with
  | zero => exact hentry start
  | succ i => exact fun hfound => h i start ((hasFunction_cons_succ i start).mp hfound)

theorem Answers.cons {answer : Option FunctionMatch}
    (hentry : ∀ other, ¬ u.HasFunction s address (entry :: entries) 0 other)
    (h : u.Answers s address entries answer) : u.Answers s address (entry :: entries) answer := by
  cases h with
  | none h => exact .none (not_hasFunction_cons hentry h)
  | some name h => exact .some name (h.cons hentry)

/-- An entry that does not count is passed over. -/
theorem searchEntries_skip {c : Cursor} (hafter : entry.after = .ok c)
    (hcode : entry.tag = Entry.functionTag → entry.HasReadableCode s u)
    (hentry : ∀ other, ¬ u.HasFunction s address (entry :: entries) 0 other)
    (ending : Option DebugError) :
    searchEntries (loadAt s) s u address ending (entry :: entries) =
      searchEntries (loadAt s) s u address ending entries := by
  by_cases htag : entry.tag = Entry.functionTag
  · obtain ⟨found, hfound, hcovers⟩ := Entry.coveringStart?_spec hafter (hcode htag) address
    have hnone : found = none := by
      cases found with
      | none => rfl
      | some start => exact absurd ⟨entry, rfl, htag, (hcovers start).mp rfl⟩ (hentry start)
    rw [searchEntries, if_neg (not_not_intro htag), hfound, hnone]
    rfl
  · rw [searchEntries, if_pos htag]

/-- The search ends at an entry that counts, by whatever name is found for it. -/
theorem searchEntries_found {c : Cursor} (hafter : entry.after = .ok c)
    (hcode : entry.tag = Entry.functionTag → entry.HasReadableCode s u) {start : Nat}
    (hentry : u.HasFunction s address (entry :: entries) 0 start) {name : Option String}
    (hname : Entry.name? (loadAt s) s maxNameReferences u entry = .ok name)
    (ending : Option DebugError) :
    searchEntries (loadAt s) s u address ending (entry :: entries) =
      .ok (some { name := name.getD unknownName, start, displacement := address - start,
                  unit := u.header.start }) := by
  obtain ⟨_, hhead, htag, hcovers⟩ := hentry
  obtain rfl := Option.some.inj hhead
  obtain ⟨found, hfound, hiff⟩ := Entry.coveringStart?_spec hafter (hcode htag) address
  obtain rfl := (hiff start).mpr hcovers
  rw [searchEntries, if_neg (not_not_intro htag), hfound]
  show (Entry.name? (loadAt s) s maxNameReferences u entry >>= _) = _
  rw [hname]
  rfl

/-- The search of entries that can be decoded answers. -/
theorem searchEntries_answers (hafter : ∀ entry ∈ entries, ∃ rest, entry.after = .ok rest)
    (hread : ∀ entry ∈ entries, entry.tag = Entry.functionTag → u.CanRead s address entry) :
    ∃ answer, searchEntries (loadAt s) s u address none entries = .ok answer ∧
      u.Answers s address entries answer := by
  induction entries with
  | nil => exact ⟨none, rfl, .none fun i start ⟨_, h, _⟩ => by simp at h⟩
  | cons entry rest ih =>
    have hmem : entry ∈ entry :: rest := List.mem_cons_self
    obtain ⟨c, hc⟩ := hafter entry hmem
    have hcode := fun htag => (hread entry hmem htag).code
    by_cases hentry : ∃ start, u.HasFunction s address (entry :: rest) 0 start
    · obtain ⟨start, hfunction⟩ := hentry
      obtain ⟨_, hhead, htag, hcover⟩ := hfunction
      obtain rfl := Option.some.inj hhead
      obtain ⟨name, hname⟩ := (hread entry hmem htag).name start hcover
      have hfunction : u.HasFunction s address (entry :: rest) 0 start :=
        ⟨entry, rfl, htag, hcover⟩
      exact ⟨_, searchEntries_found hc hcode hfunction hname none,
        .some (name.getD unknownName) ⟨hfunction, fun j hj => absurd hj (Nat.not_lt_zero j)⟩⟩
    · obtain ⟨answer, hrest, hanswer⟩ := ih (fun e he => hafter e (List.mem_cons_of_mem _ he))
        (fun e he => hread e (List.mem_cons_of_mem _ he))
      have hskip := not_exists.mp hentry
      exact ⟨answer, (searchEntries_skip hc hcode hskip none).trans hrest, hanswer.cons hskip⟩

end CompilationUnit

/-! ## The function at an address -/

/-- Whether an address is one of the range's. -/
def UnitRange.Holds (r : UnitRange) (address : Nat) : Prop := r.start ≤ address ∧ address < r.stop

theorem UnitRange.contains_iff (r : UnitRange) (address : Nat) :
    r.contains address = true ↔ r.Holds address := by
  simp [contains, Holds]

/-- The first range of the index that contains an address. -/
def AddressIndex.HasFirst (x : AddressIndex) (address : Nat) (r : UnitRange) : Prop :=
  r.Holds address ∧ ∃ before after, x.ranges = before ++ r :: after ∧
    ∀ other ∈ before, ¬ other.Holds address

theorem AddressIndex.find?_eq_some_iff (x : AddressIndex) (address : Nat) (r : UnitRange) :
    x.find? address = some r ↔ x.HasFirst address r := by
  rw [find?, List.find?_eq_some_iff_append]
  simp only [Bool.not_eq_true', ← Bool.not_eq_true, UnitRange.contains_iff]
  rfl

theorem AddressIndex.find?_eq_none_iff (x : AddressIndex) (address : Nat) :
    x.find? address = none ↔ ∀ r ∈ x.ranges, ¬ r.Holds address := by
  simp [find?, UnitRange.contains_iff]

namespace DebugInfo

/-- Whatever the search for the function at an address may read can be decoded. -/
def DecodesAt (d : DebugInfo) (address : Nat) : Prop :=
  ∀ r, d.index.HasFirst address r →
    ∃ u, CompilationUnit.loadAt d.sections r.unit = .ok u ∧ u.CanSearch d.sections address

/-- The function `f` is found at the address, through the entry at position `i` of its unit. -/
structure Finds (d : DebugInfo) (address i : Nat) (f : FunctionMatch) : Prop where
  answer : d.function? address = .ok (some f)
  unit : ∃ r, d.index.HasFirst address r ∧ f.unit = r.unit
  first : ∃ u, CompilationUnit.loadAt d.sections f.unit = .ok u ∧
    u.HasFirstFunction d.sections address u.entries.1 i f.start
  start_le : f.start ≤ address
  displacement : f.displacement = address - f.start

/-- No function is found at the address: no unit is listed for it, or the one that is listed first
has no function there. -/
structure FindsNothing (d : DebugInfo) (address : Nat) : Prop where
  answer : d.function? address = .ok none
  reason : (∀ r ∈ d.index.ranges, ¬ r.Holds address) ∨
    ∃ r u, d.index.HasFirst address r ∧ CompilationUnit.loadAt d.sections r.unit = .ok u ∧
      ∀ i start, ¬ u.HasFunction d.sections address u.entries.1 i start

variable {d : DebugInfo} {address other i : Nat} {f g : FunctionMatch}

theorem finds_or_findsNothing (h : d.DecodesAt address) :
    (∃ i f, d.Finds address i f) ∨ d.FindsNothing address := by
  cases hr : d.index.find? address with
  | none =>
    have hfunction : d.function? address = .ok none := by
      unfold function? searchFunction
      rw [hr]
      rfl
    exact .inr ⟨hfunction, .inl ((d.index.find?_eq_none_iff address).mp hr)⟩
  | some r =>
    have hfirst := (d.index.find?_eq_some_iff address r).mp hr
    obtain ⟨u, hu, hsearch⟩ := h r hfirst
    have hafter : ∀ entry ∈ u.entries.1, ∃ rest, entry.after = .ok rest :=
      Entry.after_of_readAll hsearch.ending
    obtain ⟨answer, hanswer, hmatch⟩ :=
      CompilationUnit.searchEntries_answers hafter hsearch.functions
    have hfunction : d.function? address = .ok answer := by
      unfold function? searchFunction
      rw [hr]
      show (CompilationUnit.loadAt d.sections r.unit >>= _) = _
      rw [hu, ok_bind, CompilationUnit.function?, hsearch.ending, hanswer]
    have hstart := CompilationUnit.start_of_loadAt hu
    cases hmatch with
    | none hnone => exact .inr ⟨hfunction, .inr ⟨r, u, hfirst, hu, hnone⟩⟩
    | some name hfound =>
      obtain ⟨entry, _, _, hcovers⟩ := hfound.found
      exact .inl ⟨_, _, hfunction, ⟨r, hfirst, hstart⟩, ⟨u, by rw [hstart, hu], hfound⟩,
        hcovers.start_le, rfl⟩

/-- Two addresses in one function are as far from its start as from each other. -/
theorem Finds.displacement_sub (hf : d.Finds address i f) (hg : d.Finds other i g)
    (hunit : f.unit = g.unit) :
    (g.displacement : Int) - f.displacement = (other : Int) - address := by
  obtain ⟨u, hu, hfirst⟩ := hf.first
  obtain ⟨u', hu', hfirst'⟩ := hg.first
  obtain rfl : u = u' := by
    rw [hunit] at hu
    exact Except.ok.inj (hu.symm.trans hu')
  obtain ⟨entry, hentry, _, hcovers⟩ := hfirst.found
  obtain ⟨entry', hentry', _, hcovers'⟩ := hfirst'.found
  obtain rfl := Option.some.inj (hentry.symm.trans hentry')
  have hstart := hcovers.start_unique hcovers'
  have hle := hf.start_le
  have hle' := hg.start_le
  have hdisplacement := hf.displacement
  have hdisplacement' := hg.displacement
  omega

/-- The search for the function at an address answers, and what it says is settled by the index and
by the first function of the unit whose code contains the address. -/
theorem function?_firstCovering (d : DebugInfo) (address : Nat) (h : d.DecodesAt address) :
    ((∃ i f, d.Finds address i f) ∨ d.FindsNothing address) ∧
      ∀ other i f g, d.Finds address i f → d.Finds other i g → f.unit = g.unit →
        (g.displacement : Int) - f.displacement = (other : Int) - address :=
  ⟨finds_or_findsNothing h, fun _ _ _ _ hf hg hunit => hf.displacement_sub hg hunit⟩

end DebugInfo

/-! ## A unit with one function

The root of the unit has a line program, in which the second of two sequences is for the code of the
function; the first one starts at address zero. -/

theorem Entry.read_eq {e : Encoding} {abbreviations : Abbreviations} {c rest : Cursor} {code : Nat}
    {a : Abbreviation} (hcode : Decoder.unsigned c = .ok (code, rest)) (hne : code ≠ 0)
    (ha : abbreviations[code]? = some a) :
    Entry.read e abbreviations c = .ok (some {
      tag := a.tag
      attributes := (Attribute.readAll e a.specs rest).1
      after := (Attribute.readAll e a.specs rest).2 }, rest) := by
  show (Decoder.unsigned c >>= _) = _
  rw [hcode, ok_bind]
  simp only [hne, if_false]
  rw [ha]
  rfl

namespace OneFunction

def sections : DebugSections where
  info := ⟨#[0x15, 0, 0, 0, 4, 0, 0, 0, 0, 0, 4,
    1, 0, 0, 0, 0,
    2, 0x66, 0, 0, 0x10, 0, 0, 0x10,
    0]⟩
  abbreviations := ⟨#[1, 0x11, 1, 0x10, 0x17, 0, 0,
    2, 0x2e, 0, 0x03, 0x08, 0x11, 0x01, 0x12, 0x0b, 0, 0,
    0]⟩
  addresses := .empty
  addressRanges := .empty
  lines := ⟨#[0x25, 0, 0, 0, 2, 0, 0x0e, 0, 0, 0, 1, 1, 1, 1, 1, 0, 0x66, 0x2e, 0x63, 0, 0, 0, 0, 0,
    1, 0, 1, 1,
    0, 5, 2, 0, 0x10, 0, 0, 1, 9, 9, 0, 1, 1]⟩
  lineTexts := .empty
  ranges := .empty
  rangeLists := .empty
  texts := .empty
  textOffsets := .empty

def rootAbbreviation : Abbreviation := ⟨1, 0x11, [⟨0x10, 0x17, none⟩]⟩

def functionAbbreviation : Abbreviation :=
  ⟨2, 0x2e, [⟨0x03, 0x08, none⟩, ⟨0x11, 0x01, none⟩, ⟨0x12, 0x0b, none⟩]⟩

def abbreviations : Abbreviations :=
  ((∅ : Abbreviations).insert 1 rootAbbreviation).insert 2 functionAbbreviation

def encoding : Encoding := ⟨false, 4, 4⟩

def header : UnitHeader := ⟨0, encoding, 0, ⟨sections.info, 11, 25⟩⟩

def root : Entry := ⟨0x11, [⟨0x10, .sectionOffset 0⟩], .ok ⟨sections.info, 16, 25⟩⟩

def function : Entry where
  tag := 0x2e
  attributes := [⟨0x03, .text ⟨#[0x66]⟩⟩, ⟨0x11, .address 0x1000⟩, ⟨0x12, .constant 0x10⟩]
  after := .ok ⟨sections.info, 24, 25⟩

def lineHeader : LineHeader where
  encoding := ⟨false, 2, 4⟩
  minInstructionLength := 1
  maxOperations := 1
  lineBase := 1
  lineRange := 1
  opcodeBase := 1
  operandCounts := .empty
  directories := #[]
  files := #[⟨.text ⟨#[0x66, 0x2e, 0x63]⟩, 0⟩]
  unitDirectory := none
  unitFile := none
  program := ⟨sections.lines, 24, 41⟩

def unit : CompilationUnit where
  header
  abbreviations
  root
  bases := { encoding }
  lowAddress := 0
  lineHeader := some lineHeader

theorem readAt_abbreviations :
    Abbreviations.readAt sections.abbreviations 0 = .ok abbreviations := by
  have hroot : Abbreviation.read ⟨sections.abbreviations, 0, 19⟩ =
      .ok (some rootAbbreviation, ⟨sections.abbreviations, 7, 19⟩) := by cbv
  have hfunction : Abbreviation.read ⟨sections.abbreviations, 7, 19⟩ =
      .ok (some functionAbbreviation, ⟨sections.abbreviations, 18, 19⟩) := by cbv
  have hend : Abbreviation.read ⟨sections.abbreviations, 18, 19⟩ =
      .ok (none, ⟨sections.abbreviations, 19, 19⟩) := by cbv
  show Abbreviations.readFrom ∅ ⟨sections.abbreviations, 0, 19⟩ = _
  simp [Abbreviations.readFrom, hroot, hfunction, hend, Cursor.remaining, rootAbbreviation,
    functionAbbreviation, abbreviations]

theorem read_root : Entry.read encoding abbreviations ⟨sections.info, 11, 25⟩ =
    .ok (some root, ⟨sections.info, 12, 25⟩) := by
  have hcode : Decoder.unsigned ⟨sections.info, 11, 25⟩ = .ok (1, ⟨sections.info, 12, 25⟩) := by cbv
  have habbreviation : abbreviations[1]? = some rootAbbreviation := by
    simp [abbreviations, Std.HashMap.getElem_insert]
  rw [Entry.read_eq hcode (by decide) habbreviation]
  cbv

theorem read_function : Entry.read encoding abbreviations ⟨sections.info, 16, 25⟩ =
    .ok (some function, ⟨sections.info, 17, 25⟩) := by
  have hcode : Decoder.unsigned ⟨sections.info, 16, 25⟩ = .ok (2, ⟨sections.info, 17, 25⟩) := by cbv
  have habbreviation : abbreviations[2]? = some functionAbbreviation := by
    simp [abbreviations]
  rw [Entry.read_eq hcode (by decide) habbreviation]
  cbv

theorem entries_unit : unit.entries = ([root, function], none) := by
  have hend : Entry.read encoding abbreviations ⟨sections.info, 24, 25⟩ =
      .ok (none, ⟨sections.info, 25, 25⟩) := rfl
  show Entry.readAll encoding abbreviations header.entries = _
  simp [Entry.readAll, read_root, read_function, hend, header, Cursor.remaining, Cursor.atEnd,
    root, function]

theorem load_header : CompilationUnit.load sections header = .ok unit := by
  have habbreviations : Abbreviations.readAt sections.abbreviations header.abbreviationsAt =
      .ok abbreviations := readAt_abbreviations
  have hroot : CompilationUnit.firstEntry header.encoding abbreviations header.entries =
      .ok root := by
    simp [CompilationUnit.firstEntry, header, read_root, Cursor.atEnd]
  have hlines : Decoder.readSection (LineHeader.read 4 none none) sections.lines 0 =
      .ok lineHeader := by cbv
  rw [CompilationUnit.load, habbreviations, ok_bind, hroot]
  show (Decoder.readSection (LineHeader.read 4 none none) sections.lines 0 >>= _) = _
  rw [hlines]
  rfl

theorem loadAt_zero : CompilationUnit.loadAt sections 0 = .ok unit := by
  have hskip : Decoder.skip 0 (.ofSection sections.info) = .ok ((), .ofSection sections.info) := rfl
  have hheader : Decoder.readAt UnitHeader.read (.ofSection sections.info) = .ok header := by cbv
  rw [CompilationUnit.loadAt, hskip, ok_bind]
  show (Decoder.readAt UnitHeader.read (.ofSection sections.info) >>= _) = _
  rw [hheader, ok_bind, load_header]

def debugInfo : DebugInfo := ⟨sections, ⟨[⟨0x1000, 0x1010, 0⟩]⟩⟩

theorem function?_debugInfo :
    debugInfo.function? 0x100a = .ok (some ⟨"f", 0x1000, 0xa, 0⟩) := by
  show (CompilationUnit.loadAt sections 0 >>= _) = _
  rw [loadAt_zero, ok_bind, CompilationUnit.function?, entries_unit]
  decide +kernel

theorem decodesAt (address : Nat) : debugInfo.DecodesAt address := by
  intro r hr
  obtain rfl : r = ⟨0x1000, 0x1010, 0⟩ := by
    obtain ⟨_, before, after, heq, _⟩ := hr
    have hmem : r ∈ debugInfo.index.ranges := by simp [heq]
    simpa [debugInfo] using hmem
  have hcode : function.HasReadableCode sections unit :=
    ⟨⟨_, rfl⟩, fun h => by cases h⟩
  have hname : Entry.name? (CompilationUnit.loadAt sections) sections maxNameReferences unit
      function = .ok (some "f") := by cbv
  refine ⟨unit, loadAt_zero, by rw [entries_unit], ?_⟩
  rw [entries_unit]
  intro entry hentry htag
  obtain rfl | rfl : entry = root ∨ entry = function := by simpa using hentry
  · cases htag
  · exact ⟨hcode, fun _ _ => ⟨_, hname⟩⟩

/-- Ten bytes into the function, that function is found. -/
theorem finds_function : (∃ i f, debugInfo.Finds 0x100a i f ∧ f = ⟨"f", 0x1000, 0xa, 0⟩) ∧
    ∀ other i f g, debugInfo.Finds 0x100a i f → debugInfo.Finds other i g → f.unit = g.unit →
      (g.displacement : Int) - f.displacement = (other : Int) - 0x100a := by
  obtain ⟨hfound, hlaw⟩ := debugInfo.function?_firstCovering 0x100a (decodesAt 0x100a)
  refine ⟨?_, hlaw⟩
  obtain ⟨i, f, hf⟩ | hnothing := hfound
  · exact ⟨i, f, hf, Option.some.inj (Except.ok.inj (hf.answer.symm.trans function?_debugInfo))⟩
  · exact nomatch hnothing.answer.symm.trans function?_debugInfo

end OneFunction

end Postmortem.Debug
