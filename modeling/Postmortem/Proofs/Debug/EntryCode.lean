import Mathlib.Order.Bounds.Basic
import Mathlib.Tactic.Common
import Postmortem.Debug.Function
import Postmortem.Proofs.Module.Contents

/-!
# Where the code of an entry is

An entry covers what lies between its low and its high address, or else the ranges of its list. Both
are said here from the attributes alone, and are what is read off an entry that can be decoded.
-/
namespace Postmortem.Debug

/-! ## Attributes -/

/-- The value of the first attribute of a name. -/
def valueOf? (attributes : List Attribute) (name : Nat) : Option AttributeValue :=
  (attributes.find? (·.name = name)).map (·.value)

theorem valueOf?_cons (a : Attribute) (attributes : List Attribute) (name : Nat) :
    valueOf? (a :: attributes) name =
      if a.name = name then some a.value else valueOf? attributes name := by
  by_cases h : a.name = name <;> simp [valueOf?, h]

/-- A constant is no address. -/
theorem addressOf_constant {s : DebugSections} {b : UnitBases} {v : AttributeValue} {n : Nat}
    (h : v.constant? = some n) : s.addressOf b v = .ok none := by
  cases v with
  | constant => rfl
  | signedConstant => rfl
  | _ => cases h

namespace Entry

variable {s : DebugSections} {u : CompilationUnit} {entry : Entry}

theorem value?_eq {c : Cursor} (h : entry.after = .ok c) (name : Nat) :
    entry.value? name = .ok (valueOf? entry.attributes name) := by
  unfold value? valueOf?
  cases entry.attributes.find? (·.name = name) with
  | some a => rfl
  | none =>
    rw [h]
    rfl

/-- Where the entries of a unit do not end early, all attributes could be read. -/
theorem after_of_readAll {e : Encoding} {abbreviations : Abbreviations} {c : Cursor}
    (h : (readAll e abbreviations c).2 = none) :
    ∀ entry ∈ (readAll e abbreviations c).1, ∃ rest, entry.after = .ok rest := by
  fun_induction readAll e abbreviations c with
  | case1 => simp
  | case2 => cases h
  | case3 c _ rest _ _ ih => exact ih h
  | case4 => simp
  | case5 => cases h
  | case6 c _ entry _ _ rest hafter _ entries ending hrest ih =>
    simp only [hrest] at ih
    intro other hother
    obtain rfl | hother := List.mem_cons.mp hother
    · exact ⟨rest, hafter⟩
    · exact ih h other hother
  | case7 c _ entry _ _ rest hafter =>
    intro other hother
    obtain rfl := List.mem_singleton.mp hother
    exact ⟨rest, hafter⟩

/-! ## Low and high addresses -/

/-- What the high address of an entry is by its attribute: that address, or the one so many bytes
behind the low address. -/
inductive Reaches (s : DebugSections) (u : CompilationUnit) (low : Nat) (v : AttributeValue) :
    Nat → Prop
  | address {high : Nat} (h : s.addressOf u.bases v = .ok (some high)) : Reaches s u low v high
  | length {n : Nat} (h : v.constant? = some n) : Reaches s u low v ((low + n) % UInt64.size)

/-- The attributes of the entry give its low and its high address. -/
structure Spans (entry : Entry) (s : DebugSections) (u : CompilationUnit) (low high : Nat) :
    Prop where
  starts : ∃ v, valueOf? entry.attributes AttributeName.lowAddress = some v ∧
    s.addressOf u.bases v = .ok (some low)
  ends : ∃ v, valueOf? entry.attributes AttributeName.highAddress = some v ∧ Reaches s u low v high

theorem Reaches.unique {low high high' : Nat} {v : AttributeValue} (h : Reaches s u low v high)
    (h' : Reaches s u low v high') : high = high' := by
  cases h with
  | address h =>
    cases h' with
    | address h' => exact Option.some.inj (Except.ok.inj (h.symm.trans h'))
    | length h' => simp [addressOf_constant h'] at h
  | length h =>
    cases h' with
    | address h' => simp [addressOf_constant h] at h'
    | length h' => rw [Option.some.inj (h.symm.trans h')]

theorem Spans.unique {low low' high high' : Nat} (h : entry.Spans s u low high)
    (h' : entry.Spans s u low' high') : low = low' ∧ high = high' := by
  obtain ⟨⟨v, hv, hlow⟩, w, hw, hhigh⟩ := h
  obtain ⟨⟨v', hv', hlow'⟩, w', hw', hhigh'⟩ := h'
  obtain rfl := Option.some.inj (hv.symm.trans hv')
  obtain rfl := Option.some.inj (hw.symm.trans hw')
  obtain rfl := Option.some.inj (Except.ok.inj (hlow.symm.trans hlow'))
  exact ⟨rfl, hhigh.unique hhigh'⟩

theorem Spans.bounds?_eq {c : Cursor} (hafter : entry.after = .ok c) {low high : Nat}
    (h : entry.Spans s u low high) : entry.bounds? s u = .ok (some ⟨low, high⟩) := by
  obtain ⟨⟨v, hv, hlow⟩, w, hw, hhigh⟩ := h
  simp only [bounds?, value?_eq hafter, hv, hlow, hw, ok_bind]
  cases hhigh with
  | address h =>
    rw [h]
    rfl
  | length h =>
    rw [addressOf_constant h, h]
    rfl

/-- The range that is read off an entry is the one its low and high address give. -/
theorem spans_of_bounds? {c : Cursor} (hafter : entry.after = .ok c) {r : CodeRange}
    (h : entry.bounds? s u = .ok (some r)) : entry.Spans s u r.start r.stop := by
  simp only [bounds?, value?_eq hafter, ok_bind] at h
  split at h
  · next low hlow =>
    obtain ⟨start, hstart, h⟩ := ok_of_bind h
    split at h
    · next start =>
      split at h
      · next high hhigh =>
        obtain ⟨stop, hstop, h⟩ := ok_of_bind h
        split at h
        · obtain rfl := Option.some.inj (Except.ok.inj h)
          exact ⟨⟨low, hlow, hstart⟩, high, hhigh, .address hstop⟩
        · obtain ⟨n, hn, rfl⟩ := Option.map_eq_some_iff.mp (Except.ok.inj h)
          exact ⟨⟨low, hlow, hstart⟩, high, hhigh, .length hn⟩
      · cases h
    · cases h
  · cases h

/-! ## Lists of ranges -/

/-- The ranges of the first attribute of that name that stands for a list. -/
inductive ListsRanges (s : DebugSections) (u : CompilationUnit) :
    List Attribute → List CodeRange → Prop
  | here {a : Attribute} {rest : List Attribute} {ranges : List CodeRange}
      (hname : a.name = AttributeName.ranges)
      (hlist : CodeRange.listOf s u a.value = .ok (some ranges)) :
      ListsRanges s u (a :: rest) ranges
  | later {a : Attribute} {rest : List Attribute} {ranges : List CodeRange}
      (ha : a.name = AttributeName.ranges → CodeRange.listOf s u a.value = .ok none)
      (h : ListsRanges s u rest ranges) : ListsRanges s u (a :: rest) ranges

theorem listsRanges_cons_iff {a : Attribute} {rest : List Attribute}
    (ha : a.name = AttributeName.ranges → CodeRange.listOf s u a.value = .ok none)
    (ranges : List CodeRange) :
    ListsRanges s u (a :: rest) ranges ↔ ListsRanges s u rest ranges := by
  refine ⟨fun h => ?_, .later ha⟩
  cases h with
  | here hname hlist => simp [ha hname] at hlist
  | later _ h => exact h

theorem ListsRanges.unique {attributes : List Attribute} {ranges ranges' : List CodeRange}
    (h : ListsRanges s u attributes ranges) (h' : ListsRanges s u attributes ranges') :
    ranges = ranges' := by
  induction h with
  | here hname hlist =>
    cases h' with
    | here _ hlist' => exact Option.some.inj (Except.ok.inj (hlist.symm.trans hlist'))
    | later ha _ => simp [ha hname] at hlist
  | later ha _ ih => exact ih ((listsRanges_cons_iff ha _).mp h')

theorem ListsRanges.valueOf? {attributes : List Attribute} {ranges : List CodeRange}
    (h : ListsRanges s u attributes ranges) :
    ∃ v, valueOf? attributes AttributeName.ranges = some v := by
  induction h with
  | here hname _ => simp [valueOf?_cons, hname]
  | @later a rest _ _ _ ih =>
    by_cases hname : a.name = AttributeName.ranges <;> simp [valueOf?_cons, hname, ih]

/-- The first low address among the attributes has the form of one. -/
def HasLow (s : DebugSections) (u : CompilationUnit) (attributes : List Attribute) : Prop :=
  ∃ v low, Debug.valueOf? attributes AttributeName.lowAddress = some v ∧
    s.addressOf u.bases v = .ok (some low)

/-- The first high address among the attributes has a form that it can have. -/
def HasHigh (s : DebugSections) (u : CompilationUnit) (attributes : List Attribute) : Prop :=
  ∃ v, Debug.valueOf? attributes AttributeName.highAddress = some v ∧
    ∀ low, ∃ high, Reaches s u low v high

theorem spans_of_hasLow (hlow : HasLow s u entry.attributes)
    (hhigh : HasHigh s u entry.attributes) :
    ∃ low high, entry.Spans s u low high := by
  obtain ⟨v, low, hv, hlow⟩ := hlow
  obtain ⟨w, hw, hreaches⟩ := hhigh
  obtain ⟨high, hhigh⟩ := hreaches low
  exact ⟨low, high, ⟨v, hv, hlow⟩, w, hw, hhigh⟩

theorem addressOf_of_requireAddress {v : AttributeValue} {address : Nat}
    (h : requireAddress s u v = .ok address) : s.addressOf u.bases v = .ok (some address) := by
  obtain ⟨found, hfound, h⟩ := ok_of_bind h
  split at h
  · rw [hfound, Except.ok.inj h]
  · cases h

theorem HasLow.cons {a : Attribute} {rest : List Attribute} (h : HasLow s u rest)
    (hname : a.name ≠ AttributeName.lowAddress) : HasLow s u (a :: rest) := by
  simpa [HasLow, valueOf?_cons, hname] using h

theorem HasHigh.cons {a : Attribute} {rest : List Attribute} (h : HasHigh s u rest)
    (hname : a.name ≠ AttributeName.highAddress) : HasHigh s u (a :: rest) := by
  simpa [HasHigh, valueOf?_cons, hname] using h

/-- The ranges of an entry are those of its list. Without a list there is at most the range between
its bounds, each of which was given before or is among the attributes. -/
theorem rangesOf_cases {after : Except DebugError Cursor} {b : CodeBounds}
    {attributes : List Attribute} {ranges : List CodeRange}
    (h : rangesOf s u after b attributes = .ok ranges) :
    ListsRanges s u attributes ranges ∨
      (∀ other, ¬ ListsRanges s u attributes other) ∧
      (ranges ≠ [] → (b.low = none → HasLow s u attributes) ∧
        (b.high = none → b.length = none → HasHigh s u attributes)) := by
  -- The bounds that were met so far vary; a bound that is missing from them has to come later.
  induction attributes generalizing b with
  | nil =>
    obtain ⟨_, _, h⟩ := ok_of_bind h
    obtain rfl := Except.ok.inj h
    refine .inr ⟨fun _ h => (nomatch h), fun hne => ⟨fun hlow => ?_, fun hhigh hlength => ?_⟩⟩
    · simp [CodeBounds.range?, hlow] at hne
    · simp [CodeBounds.range?, hhigh, hlength] at hne
  | cons a rest ih =>
    have hlater (ha : a.name = AttributeName.ranges → CodeRange.listOf s u a.value = .ok none)
        {P Q : Prop} (hPQ : P → Q)
        (h : ListsRanges s u rest ranges ∨ (∀ other, ¬ ListsRanges s u rest other) ∧ P) :
        ListsRanges s u (a :: rest) ranges ∨ (∀ other, ¬ ListsRanges s u (a :: rest) other) ∧ Q :=
      h.imp (.later ha) fun ⟨hnone, hP⟩ =>
        ⟨fun other ho => hnone other ((listsRanges_cons_iff ha other).mp ho), hPQ hP⟩
    rw [rangesOf] at h
    split at h
    · next hname =>
      obtain ⟨low, hlow, h⟩ := ok_of_bind h
      refine hlater (by simp [hname, AttributeName.lowAddress, AttributeName.ranges])
        (fun hrest hne => ⟨fun _ => ?_, fun hhigh hlength => ?_⟩) (ih h)
      · exact ⟨a.value, low, by simp [valueOf?_cons, hname], addressOf_of_requireAddress hlow⟩
      · refine ((hrest hne).2 hhigh hlength).cons ?_
        simp [hname, AttributeName.lowAddress, AttributeName.highAddress]
    · next hlowname =>
      split at h
      · next hname =>
        have hranges : a.name ≠ AttributeName.ranges := by
          simp [hname, AttributeName.highAddress, AttributeName.ranges]
        split at h
        · next n hn =>
          refine hlater (absurd · hranges) (fun hrest hne => ⟨fun hlow => ?_, fun _ _ => ?_⟩) (ih h)
          · exact ((hrest hne).1 hlow).cons hlowname
          · exact ⟨a.value, by simp [valueOf?_cons, hname], fun low => ⟨_, .length hn⟩⟩
        · obtain ⟨high, hhigh, h⟩ := ok_of_bind h
          refine hlater (absurd · hranges) (fun hrest hne => ⟨fun hlow => ?_, fun _ _ => ?_⟩) (ih h)
          · exact ((hrest hne).1 hlow).cons hlowname
          · exact ⟨a.value, by simp [valueOf?_cons, hname],
              fun low => ⟨high, .address (addressOf_of_requireAddress hhigh)⟩⟩
      · next hhighname =>
        have hshift (hrest : ranges ≠ [] → (b.low = none → HasLow s u rest) ∧
            (b.high = none → b.length = none → HasHigh s u rest)) (hne : ranges ≠ []) :
            (b.low = none → HasLow s u (a :: rest)) ∧
              (b.high = none → b.length = none → HasHigh s u (a :: rest)) :=
          ⟨fun hlow => ((hrest hne).1 hlow).cons hlowname,
            fun hhigh hlength => ((hrest hne).2 hhigh hlength).cons hhighname⟩
        split at h
        · next hname =>
          obtain ⟨list, hlist, h⟩ := ok_of_bind h
          split at h
          · obtain rfl := Except.ok.inj h
            exact .inl (.here hname hlist)
          · exact hlater (fun _ => hlist) hshift (ih h)
        · next hname => exact hlater (absurd · hname) hshift (ih h)

/-- Without a low and a high address an entry has the ranges of its list and no others. -/
theorem ranges_cases (hspans : ∀ low high, ¬ entry.Spans s u low high) {ranges : List CodeRange}
    (h : entry.ranges s u = .ok ranges) :
    ListsRanges s u entry.attributes ranges ∨
      (∀ other, ¬ ListsRanges s u entry.attributes other) ∧ ranges = [] := by
  refine (rangesOf_cases h).imp_right fun ⟨hnone, hbounds⟩ => ⟨hnone, ?_⟩
  by_contra hne
  obtain ⟨low, high, hspan⟩ := spans_of_hasLow ((hbounds hne).1 rfl) ((hbounds hne).2 rfl rfl)
  exact hspans low high hspan

/-! ## Where the code of an entry is -/

/-- Where the ranges that are not empty begin. -/
def beginnings (ranges : List CodeRange) : Set Nat :=
  {start | ∃ r ∈ ranges, r.start < r.stop ∧ r.start = start}

/-- The code of the entry contains the address and starts at `start`. The list of ranges counts
only where no low and high address are given. -/
inductive Covers (entry : Entry) (s : DebugSections) (u : CompilationUnit) (address : Nat) :
    Nat → Prop
  | bounds {low high : Nat} (h : entry.Spans s u low high) (hlow : low ≤ address)
      (hhigh : address < high) : entry.Covers s u address low
  | ranges {ranges : List CodeRange} {r : CodeRange} {start : Nat}
      (hspans : ∀ low high, ¬ entry.Spans s u low high)
      (hlist : ListsRanges s u entry.attributes ranges) (hr : r ∈ ranges)
      (hstart : r.start ≤ address) (hstop : address < r.stop)
      (hleast : IsLeast (beginnings ranges) start) : entry.Covers s u address start

theorem Covers.start_le {address start : Nat} (h : entry.Covers s u address start) :
    start ≤ address := by
  cases h with
  | bounds _ hlow _ => exact hlow
  | ranges _ _ hr hstart hstop hleast =>
    exact (hleast.2 ⟨_, hr, by omega, rfl⟩).trans hstart

/-- Where an entry's code starts does not depend on the address that is looked for. -/
theorem Covers.start_unique {address other start start' : Nat} (h : entry.Covers s u address start)
    (h' : entry.Covers s u other start') : start = start' := by
  cases h with
  | bounds h =>
    cases h' with
    | bounds h' => exact (h.unique h').1
    | ranges hspans => exact absurd h (hspans _ _)
  | ranges hspans hlist _ _ _ hleast =>
    cases h' with
    | bounds h' => exact absurd h' (hspans _ _)
    | ranges _ hlist' _ _ _ hleast' =>
      obtain rfl := hlist.unique hlist'
      exact hleast.unique hleast'

theorem startOf?_eq_some_iff (ranges : List CodeRange) (address start : Nat) :
    startOf? ranges address = some start ↔
      (∃ r ∈ ranges, r.start ≤ address ∧ address < r.stop) ∧
        IsLeast (beginnings ranges) start := by
  have hcontains : ((ranges.filter (!·.isEmpty)).any (·.contains address) = true) ↔
      ∃ r ∈ ranges, r.start ≤ address ∧ address < r.stop := by
    simp only [List.any_filter, List.any_eq_true, Bool.and_eq_true, CodeRange.isEmpty,
      CodeRange.contains, Bool.not_eq_true', decide_eq_false_iff_not, decide_eq_true_eq]
    refine exists_congr fun r => and_congr_right fun _ => ⟨And.right, fun h => ⟨?_, h⟩⟩
    omega
  have hmem (start : Nat) : start ∈ (ranges.filter (!·.isEmpty)).map (·.start) ↔
      start ∈ beginnings ranges := by
    simp [beginnings, CodeRange.isEmpty, and_assoc]
  have hleast : ((ranges.filter (!·.isEmpty)).map (·.start)).min? = some start ↔
      IsLeast (beginnings ranges) start := by
    rw [List.min?_eq_some_iff]
    simp only [hmem]
    rfl
  unfold startOf?
  simp only [← hcontains, ← hleast]
  split
  · next h => simp [h]
  · next h => simp [h]

theorem covers_iff_of_spans {low high : Nat} (h : entry.Spans s u low high)
    (address start : Nat) :
    entry.Covers s u address start ↔ (low ≤ address ∧ address < high) ∧ low = start := by
  constructor
  · intro hc
    cases hc with
    | bounds h' hlow hhigh =>
      obtain ⟨rfl, rfl⟩ := h.unique h'
      exact ⟨⟨hlow, hhigh⟩, rfl⟩
    | ranges hspans => exact absurd h (hspans _ _)
  · rintro ⟨⟨hlow, hhigh⟩, rfl⟩
    exact .bounds h hlow hhigh

theorem covers_iff_of_list (hspans : ∀ low high, ¬ entry.Spans s u low high)
    (address start : Nat) :
    entry.Covers s u address start ↔
      ∃ ranges, ListsRanges s u entry.attributes ranges ∧ startOf? ranges address = some start := by
  simp only [startOf?_eq_some_iff]
  constructor
  · intro hc
    cases hc with
    | bounds h => exact absurd h (hspans _ _)
    | ranges _ hlist hr hstart hstop hleast => exact ⟨_, hlist, ⟨_, hr, hstart, hstop⟩, hleast⟩
  · rintro ⟨ranges, hlist, ⟨r, hr, hstart, hstop⟩, hleast⟩
    exact .ranges hspans hlist hr hstart hstop hleast

/-- The code of the entry can be decoded: its low and high address, and where these are missing its
list of ranges. -/
structure HasReadableCode (entry : Entry) (s : DebugSections) (u : CompilationUnit) : Prop where
  bounds : ∃ found, entry.bounds? s u = .ok found
  ranges : entry.bounds? s u = .ok none →
    ∀ v, valueOf? entry.attributes AttributeName.ranges = some v →
      ∃ ranges, entry.ranges s u = .ok ranges

/-- For an entry that can be decoded the test of an address answers, and it finds where the code
starts exactly if the code contains the address. -/
theorem coveringStart?_spec {c : Cursor} (hafter : entry.after = .ok c)
    (h : entry.HasReadableCode s u) (address : Nat) :
    ∃ found, entry.coveringStart? s u address = .ok found ∧
      ∀ start, found = some start ↔ entry.Covers s u address start := by
  obtain ⟨bounds, hbounds⟩ := h.bounds
  cases bounds with
  | some r =>
    refine ⟨if r.contains address then some r.start else none, ?_, fun start => ?_⟩
    · simp only [coveringStart?, hbounds, ok_bind]
      rfl
    · rw [covers_iff_of_spans (spans_of_bounds? hafter hbounds)]
      simp [CodeRange.contains]
  | none =>
    have hspans (low high : Nat) : ¬ entry.Spans s u low high := fun hspan => by
      simp [hspan.bounds?_eq hafter] at hbounds
    simp only [coveringStart?, hbounds, value?_eq hafter, ok_bind, covers_iff_of_list hspans]
    cases hv : valueOf? entry.attributes AttributeName.ranges with
    | none =>
      refine ⟨none, rfl, fun start => ⟨fun h => (nomatch h), fun ⟨_, hlist, _⟩ => ?_⟩⟩
      obtain ⟨v, hsome⟩ := hlist.valueOf?
      simp [hv] at hsome
    | some v =>
      obtain ⟨ranges, hranges⟩ := h.ranges hbounds v hv
      refine ⟨startOf? ranges address, by simp only [hranges, ok_bind]; rfl, fun start => ?_⟩
      obtain hlist | ⟨hnone, rfl⟩ := ranges_cases hspans hranges
      · refine ⟨fun hs => ⟨ranges, hlist, hs⟩, fun ⟨other, hother, hs⟩ => ?_⟩
        rwa [hlist.unique hother]
      · refine ⟨fun hs => ?_, fun ⟨other, hother, _⟩ => absurd hother (hnone other)⟩
        simp [startOf?] at hs

end Entry

end Postmortem.Debug
