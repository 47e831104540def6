import Mathlib
import Postmortem.Proofs.Debug.FunctionSearch

/-!
# Ranges up to where they break off

The section of address ranges is a sequence of sets and every set is a sequence of pairs. A unit
states one range at most or else a list of them. Here these sequences are read as far as they go,
with what is wrong where they break off. What is otherwise read of them is everything, or nothing
when they break off anywhere.
-/
namespace Postmortem.Debug

/-- Everything that was read, unless it broke off. -/
def complete {α : Type} : List α × Option DebugError → Except DebugError (List α)
  | (items, none) => .ok items
  | (_, some x) => .error x

/-- Those ranges that are not empty, as ranges of one unit. -/
def UnitRange.nonEmpty (unit : Nat) (ranges : List CodeRange) : List UnitRange :=
  (ranges.filter fun r => r.start < r.stop).map fun r => ⟨r.start, r.stop, unit⟩

/-! ## Sets of address ranges -/

/-- A set of the section of address ranges: the unit it is for, its pairs of start and length, and
what is wrong behind the last of them if they break off there. -/
structure RangeSet where
  unit : Nat
  pairs : List (Nat × Nat)
  ending : Option DebugError

namespace RangeSet

/-- The addresses from a start on, up to the last one there can be if there are not as many. -/
def rangeOf (pair : Nat × Nat) : CodeRange :=
  ⟨pair.1, min (pair.1 + pair.2) (UInt64.size - 1)⟩

/-- The ranges of the set that are not empty. -/
def ranges (set : RangeSet) : List UnitRange := UnitRange.nonEmpty set.unit (set.pairs.map rangeOf)

def readPair (size : Nat) : Decoder (Nat × Nat) := do
  return (← Decoder.number size, ← Decoder.number size)

/-- The pairs in the cursor, without those of zeros and those for removed code. -/
def readPairs (size : Nat) (c : Cursor) : List (Nat × Nat) × Option DebugError :=
  if c.remaining < 2 * size then ([], none)
  else
    match readPair size c with
    | .error x => ([], some x)
    | .ok (pair, rest) =>
      if rest.remaining < c.remaining then
        if (pair.1 = 0 ∧ pair.2 = 0) ∨ tombstone size ≤ pair.1 then readPairs size rest
        else if addressLimit size ≤ pair.1 + pair.2 then ([], some .addressOverflow)
        else
          let (pairs, ending) := readPairs size rest
          (pair :: pairs, ending)
      else ([], none)
termination_by c.remaining

/-- The unit of a set and the size of addresses in it. -/
def readHeader (wide : Bool) : Decoder (Nat × Nat) := do
  let version ← Decoder.number 2
  if version ≠ 2 ∧ version ≠ 3 then throw (.unknownVersion version)
  let unit ← Decoder.number (if wide then 8 else 4)
  let size ← Decoder.addressSize
  let segmentSize ← Decoder.number 1
  if segmentSize ≠ 0 then throw (.unsupportedSegmentSize segmentSize)
  let headerSize := if wide then 24 else 12
  Decoder.skip ((2 * size - headerSize % (2 * size)) % (2 * size))
  return (unit, size)

def read (wide : Bool) (c : Cursor) : Except DebugError RangeSet := do
  let ((unit, size), rest) ← readHeader wide c
  let (pairs, ending) := readPairs size rest
  return { unit, pairs, ending }

/-- The bytes of the next set. -/
def frame : Decoder (Bool × Cursor) := do
  let (length, wide) ← Decoder.initialLength
  return (wide, ← Decoder.split length)

/-- The sets from the cursor on. -/
def readAll (c : Cursor) : List RangeSet × Option DebugError :=
  if c.atEnd then ([], none)
  else
    match frame c with
    | .error x => ([], some x)
    | .ok ((wide, body), rest) =>
      if rest.remaining < c.remaining then
        match read wide body with
        | .error x => ([], some x)
        | .ok set =>
          let (sets, ending) := readAll rest
          (set :: sets, ending)
      else ([], none)
termination_by c.remaining

/-- Neither the sets break off nor the pairs of one of them. -/
structure ReadsThrough (read : List RangeSet × Option DebugError) : Prop where
  sets : read.2 = none
  pairs : ∀ set ∈ read.1, set.ending = none

theorem readsThrough_cons_iff (set : RangeSet) (sets : List RangeSet) (ending : Option DebugError) :
    ReadsThrough (set :: sets, ending) ↔ set.ending = none ∧ ReadsThrough (sets, ending) := by
  constructor
  · rintro ⟨hsets, hpairs⟩
    exact ⟨hpairs set List.mem_cons_self, hsets, fun x hx => hpairs x (List.mem_cons_of_mem _ hx)⟩
  · rintro ⟨hset, hsets, hpairs⟩
    exact ⟨hsets, List.forall_mem_cons.mpr ⟨hset, hpairs⟩⟩

theorem addressLimit_le {size : Nat} (h : size ≤ 8) : addressLimit size ≤ UInt64.size := by
  rw [addressLimit, Nat.one_shiftLeft]
  exact Nat.pow_le_pow_right (by omega) (by omega : 8 * size ≤ 64)

theorem size_le_of_addressSize {c rest : Cursor} {size : Nat}
    (h : Decoder.addressSize c = .ok (size, rest)) : size ≤ 8 := by
  obtain ⟨n, c', _, h⟩ := Decoder.ok_of_bind h
  split at h
  · next hn =>
    cases h
    omega
  · cases h

theorem size_le_of_readHeader {wide : Bool} {c rest : Cursor} {unit size : Nat}
    (h : readHeader wide c = .ok ((unit, size), rest)) : size ≤ 8 := by
  obtain ⟨version, c₁, _, h⟩ := Decoder.ok_of_bind h
  dsimp only at h
  split at h
  · cases h
  · obtain ⟨_, c₂, _, h⟩ := Decoder.ok_of_bind h
    obtain ⟨n, c₃, hsize, h⟩ := Decoder.ok_of_bind h
    obtain ⟨_, c₄, _, h⟩ := Decoder.ok_of_bind h
    split at h
    · cases h
    · obtain ⟨_, c₅, _, h⟩ := Decoder.ok_of_bind h
      cases h
      exact size_le_of_addressSize hsize

/-- A pair that is no longer than the addresses there are states the range that it looks like. -/
theorem nonEmpty_cons_rangeOf (unit : Nat) {pair : Nat × Nat} (h : pair.1 + pair.2 < UInt64.size)
    (ranges : List CodeRange) :
    UnitRange.nonEmpty unit (rangeOf pair :: ranges) =
      if pair.2 = 0 then UnitRange.nonEmpty unit ranges
      else ⟨pair.1, pair.1 + pair.2, unit⟩ :: UnitRange.nonEmpty unit ranges := by
  have hmin : min (pair.1 + pair.2) (UInt64.size - 1) = pair.1 + pair.2 := by omega
  have hpos : pair.1 < pair.1 + pair.2 ↔ ¬ pair.2 = 0 := by omega
  simp only [UnitRange.nonEmpty, rangeOf, hmin, List.filter_cons, hpos, decide_not]
  split <;> simp_all

theorem readPairs_step (size unit : Nat) (c : Cursor) (hend : ¬ c.remaining < 2 * size) :
    UnitRange.readPairs size unit c =
      match readPair size c with
      | .error x => .error x
      | .ok (pair, rest) =>
        if rest.remaining < c.remaining then
          if (pair.1 = 0 ∧ pair.2 = 0) ∨ tombstone size ≤ pair.1 then
            UnitRange.readPairs size unit rest
          else if addressLimit size ≤ pair.1 + pair.2 then .error .addressOverflow
          else
            (UnitRange.readPairs size unit rest).map fun ranges =>
              if pair.2 = 0 then ranges else ⟨pair.1, pair.1 + pair.2, unit⟩ :: ranges
        else .ok [] := by
  rw [UnitRange.readPairs, if_neg hend, ← readPair]
  cases readPair size c with
  | error x => rfl
  | ok r =>
    dsimp only
    cases UnitRange.readPairs size unit r.2 <;> rfl

/-- The ranges of all pairs are read, or none where the pairs break off. -/
theorem readPairs_eq {size : Nat} (hsize : size ≤ 8) (unit : Nat) (c : Cursor) :
    UnitRange.readPairs size unit c =
      (complete (readPairs size c)).map fun pairs =>
        UnitRange.nonEmpty unit (pairs.map rangeOf) := by
  have hbound := addressLimit_le hsize
  fun_induction readPairs size c with
  | case1 c hend => rw [UnitRange.readPairs, if_pos hend]; rfl
  | case2 c hend x hx =>
    rw [readPairs_step _ _ _ hend, hx]
    rfl
  | case3 c hend pair rest hpair hless hskip ih =>
    rw [readPairs_step _ _ _ hend, hpair]
    simp only [if_pos hless, if_pos hskip]
    exact ih
  | case4 c hend pair rest hpair hless hskip hlimit =>
    rw [readPairs_step _ _ _ hend, hpair]
    simp only [if_pos hless, if_neg hskip, if_pos hlimit]
    rfl
  | case5 c hend pair rest hpair hless hskip hlimit pairs ending hrest ih =>
    rw [readPairs_step _ _ _ hend, hpair]
    simp only [if_pos hless, if_neg hskip, if_neg hlimit]
    rw [ih, hrest]
    cases ending with
    | none => exact congrArg Except.ok (nonEmpty_cons_rangeOf unit (by omega) _).symm
    | some x => rfl
  | case6 c hend pair rest hpair hless =>
    rw [readPairs_step _ _ _ hend, hpair]
    simp only [if_neg hless]
    rfl

/-- The ranges of the set, unless its pairs break off. -/
def ranges? (set : RangeSet) : Except DebugError (List UnitRange) :=
  (complete (set.pairs, set.ending)).map fun pairs =>
    UnitRange.nonEmpty set.unit (pairs.map rangeOf)

theorem readSet_eq (wide : Bool) (c : Cursor) :
    UnitRange.readSet wide c = read wide c >>= ranges? := by
  show (readHeader wide c >>= fun r => UnitRange.readPairs r.1.2 r.1.1 r.2) = _
  cases hheader : readHeader wide c with
  | error x =>
    rw [read, hheader]
    rfl
  | ok r =>
    obtain ⟨⟨unit, size⟩, rest⟩ := r
    rw [ok_bind, readPairs_eq (size_le_of_readHeader hheader), read, hheader]
    rfl

theorem readSets_step {c : Cursor} (hend : ¬ c.atEnd = true) :
    UnitRange.readSets c =
      match frame c with
      | .error x => .error x
      | .ok ((wide, body), rest) =>
        if rest.remaining < c.remaining then do
          let ranges ← UnitRange.readSet wide body
          return ranges ++ (← UnitRange.readSets rest)
        else .ok [] := by
  rw [UnitRange.readSets, if_neg hend]
  rfl

theorem ranges?_of_ending {set : RangeSet} (h : set.ending = none) :
    set.ranges? = .ok set.ranges := by
  rw [ranges?, h]
  rfl

theorem ranges?_of_brokenOff {set : RangeSet} {x : DebugError} (h : set.ending = some x) :
    set.ranges? = .error x := by
  rw [ranges?, h]
  rfl

/-- The ranges of all sets are read, or none where the sets or the pairs of one break off. -/
theorem readSets_cases (c : Cursor) :
    ReadsThrough (readAll c) ∧ UnitRange.readSets c = .ok ((readAll c).1.flatMap ranges) ∨
      ¬ ReadsThrough (readAll c) ∧ ∃ x, UnitRange.readSets c = .error x := by
  fun_induction readAll c with
  | case1 c hend =>
    refine .inl ⟨⟨rfl, by simp⟩, ?_⟩
    rw [UnitRange.readSets, if_pos hend]
    rfl
  | case2 c hend x hframe =>
    refine .inr ⟨fun h => (nomatch h.sets), x, ?_⟩
    rw [readSets_step hend, hframe]
  | case3 c hend wide body rest hframe hless x hread =>
    refine .inr ⟨fun h => (nomatch h.sets), x, ?_⟩
    rw [readSets_step hend, hframe]
    simp only [if_pos hless, readSet_eq, hread]
    rfl
  | case4 c hend wide body rest hframe hless set hread sets ending hrest ih =>
    rw [hrest] at ih
    rw [readsThrough_cons_iff, readSets_step hend, hframe]
    simp only [if_pos hless, readSet_eq, hread, ok_bind]
    cases hset : set.ending with
    | some x =>
      refine .inr ⟨fun h => (nomatch h.1), x, ?_⟩
      rw [ranges?_of_brokenOff hset]
      rfl
    | none =>
      rw [ranges?_of_ending hset, ok_bind]
      obtain ⟨hthrough, hranges⟩ | ⟨hnot, x, hx⟩ := ih
      · refine .inl ⟨⟨rfl, hthrough⟩, ?_⟩
        rw [hranges]
        rfl
      · refine .inr ⟨fun h => hnot h.2, x, ?_⟩
        rw [hx]
        rfl
  | case5 c hend wide body rest hframe hless =>
    refine .inl ⟨⟨rfl, by simp⟩, ?_⟩
    rw [readSets_step hend, hframe]
    simp only [if_neg hless]
    rfl

/-- Behind its one set this section breaks off, so nothing is read of it. -/
example :
    readAll (.ofSection ⟨#[20, 0, 0, 0, 2, 0, 0, 0, 0, 0, 4, 0, 0, 0, 0, 0,
      0, 0x10, 0, 0, 0x10, 0, 0, 0, 1]⟩) = ([⟨0, [(0x1000, 0x10)], none⟩], some .endOfData) := by
  cbv

end RangeSet

/-! ## The ranges of a unit -/

/-- The entries of the range list in the cursor, without the one that ends it. -/
def RangeListEntry.readAll (next : Decoder RangeListEntry) (c : Cursor) :
    List RangeListEntry × Option DebugError :=
  if c.atEnd then ([], none)
  else
    match next c with
    | .error x => ([], some x)
    | .ok (entry, rest) =>
      if rest.remaining < c.remaining then
        match entry with
        | .stop => ([], none)
        | entry =>
          let (entries, ending) := readAll next rest
          (entry :: entries, ending)
      else ([], none)
termination_by c.remaining

namespace CodeRange

/-- The ranges that the entries of a list state. Offsets from removed code state none. -/
def resolve (size base : Nat) : List RangeListEntry → List CodeRange
  | [] => []
  | .stop :: entries => resolve size base entries
  | .base address :: entries => resolve size address entries
  | .range r :: entries => r :: resolve size base entries
  | .offsets start stop :: entries =>
    if tombstone size ≤ base then resolve size base entries
    else
      ⟨(base + start) % addressLimit size, (base + stop) % addressLimit size⟩ ::
        resolve size base entries

/-- The ranges of a list that are neither empty nor for removed code. -/
def ofEntries (size base : Nat) (entries : List RangeListEntry) : List CodeRange :=
  (resolve size base entries).filter fun r => r.start < tombstone size && !r.isEmpty

theorem ofEntries_range (size base : Nat) (r : CodeRange) (entries : List RangeListEntry) :
    ofEntries size base (.range r :: entries) =
      if tombstone size ≤ r.start ∨ r.isEmpty then ofEntries size base entries
      else r :: ofEntries size base entries := by
  by_cases hremoved : tombstone size ≤ r.start
  · simp [ofEntries, resolve, hremoved]
  · have hlt : r.start < tombstone size := not_le.mp hremoved
    by_cases hempty : r.isEmpty <;>
      simp [ofEntries, resolve, hempty, hlt, hremoved]

theorem ofEntries_offsets (size base start stop : Nat) (entries : List RangeListEntry) :
    ofEntries size base (.offsets start stop :: entries) =
      if tombstone size ≤ base then ofEntries size base entries
      else ofEntries size base (.range ⟨(base + start) % addressLimit size,
        (base + stop) % addressLimit size⟩ :: entries) := by
  by_cases h : tombstone size ≤ base <;> simp [ofEntries, resolve, h]

/-- All ranges of a list are read, or none where its entries break off. -/
theorem readList_eq (s : DebugSections) (b : UnitBases) (base : Nat) (c : Cursor) :
    readList s b base c =
      (complete (RangeListEntry.readAll (RangeListEntry.read s b) c)).map
        (ofEntries b.encoding.addressSize base) := by
  fun_induction RangeListEntry.readAll (RangeListEntry.read s b) c generalizing base with
  | case1 c hend =>
    rw [readList, if_pos hend]
    rfl
  | case2 c hend x hread =>
    rw [readList, if_neg hend, hread]
    rfl
  | case3 c hend rest hless hread =>
    rw [readList, if_neg hend, hread]
    simp only [if_pos hless]
    rfl
  | case4 c hend rest hless entry hstop entries ending hrest hread ih =>
    rw [readList, if_neg hend, hread]
    simp only [if_pos hless, hrest] at ih ⊢
    cases entry with
    | stop => exact absurd rfl hstop
    | base address =>
      simp only [ih]
      cases ending <;> rfl
    | range r =>
      simp only [ih]
      cases ending with
      | none => exact congrArg Except.ok (ofEntries_range _ base r entries).symm
      | some x => rfl
    | offsets start stop =>
      simp only [ih]
      cases ending with
      | none =>
        show _ = Except.ok (ofEntries _ base (.offsets start stop :: entries))
        rw [ofEntries_offsets, ofEntries_range]
        split <;> rfl
      | some x => split <;> rfl
  | case5 c hend entry rest hread hless =>
    rw [readList, if_neg hend, hread]
    simp only [if_neg hless]
    rfl

/-- The place in the section of lists that an offset stands for. -/
def listFrom (s : DebugSections) (u : CompilationUnit) (offset : Nat) :
    Except DebugError Cursor :=
  (Decoder.skip offset (.ofSection (if u.encoding.version ≤ 4 then s.ranges else s.rangeLists))).map
    (·.2)

/-- Where the list is that an attribute stands for, if it has the form of one. -/
def listAt (s : DebugSections) (u : CompilationUnit) :
    AttributeValue → Except DebugError (Option Cursor)
  | .sectionOffset o => (listFrom s u o).map some
  | .rangeListIndex i => do
    let o ← DebugSections.indexed s.rangeLists u.bases.rangeLists i u.encoding.offsetSize
    (listFrom s u ((u.bases.rangeLists + o) % UInt64.size)).map some
  | _ => .ok none

theorem listOf_eq (s : DebugSections) (u : CompilationUnit) (v : AttributeValue) :
    listOf s u v = listAt s u v >>= Option.mapM (readList s u.bases u.lowAddress) := by
  have hfrom (o : Nat) :
      (Decoder.skip o
          (.ofSection (if u.encoding.version ≤ 4 then s.ranges else s.rangeLists)) >>= fun r =>
        some <$> readList s u.bases u.lowAddress r.2) =
      (listFrom s u o).map some >>= Option.mapM (readList s u.bases u.lowAddress) := by
    unfold listFrom
    cases Decoder.skip o _ <;> rfl
  cases v with
  | sectionOffset o => exact hfrom o
  | rangeListIndex i =>
    rw [listAt, bind_assoc]
    exact bind_congr fun o => hfrom _
  | _ => rfl

end CodeRange

/-- Where an entry states its ranges: at most one between its bounds, or a list of them. -/
inductive RangeSource where
  | bounds (r : Option CodeRange)
  | list (c : Cursor)

/-- The ranges from there, up to where they break off. -/
def RangeSource.readAll (s : DebugSections) (u : CompilationUnit) :
    RangeSource → List CodeRange × Option DebugError
  | .bounds r => (r.toList, none)
  | .list c =>
    let (entries, ending) := RangeListEntry.readAll (RangeListEntry.read s u.bases) c
    (CodeRange.ofEntries u.bases.encoding.addressSize u.lowAddress entries, ending)

theorem RangeSource.complete_list (s : DebugSections) (u : CompilationUnit) (c : Cursor) :
    complete (RangeSource.readAll s u (.list c)) = CodeRange.readList s u.bases u.lowAddress c := by
  rw [CodeRange.readList_eq, readAll]
  rcases RangeListEntry.readAll (RangeListEntry.read s u.bases) c with ⟨entries, _ | x⟩ <;> rfl

/-- Where the given attributes of an entry state its ranges. -/
def Entry.sourceOf (s : DebugSections) (u : CompilationUnit) (after : Except DebugError Cursor)
    (b : CodeBounds) : List Attribute → Except DebugError RangeSource
  | [] => do
    let _ ← after
    return .bounds b.range?
  | a :: rest => do
    if a.name = AttributeName.lowAddress then
      let low ← requireAddress s u a.value
      sourceOf s u after { b with low := some low } rest
    else if a.name = AttributeName.highAddress then
      match a.value.constant? with
      | some n => sourceOf s u after { b with length := some n } rest
      | none => do
        let high ← requireAddress s u a.value
        sourceOf s u after { b with high := some high } rest
    else if a.name = AttributeName.ranges then
      match ← CodeRange.listAt s u a.value with
      | some c => return .list c
      | none => sourceOf s u after b rest
    else sourceOf s u after b rest

theorem Entry.rangesOf_eq (s : DebugSections) (u : CompilationUnit)
    (after : Except DebugError Cursor) (b : CodeBounds) (attributes : List Attribute) :
    rangesOf s u after b attributes =
      sourceOf s u after b attributes >>= fun source => complete (source.readAll s u) := by
  induction attributes generalizing b with
  | nil => cases after <;> rfl
  | cons a rest ih =>
    rw [rangesOf, sourceOf]
    split
    · rw [bind_assoc]
      exact bind_congr fun low => ih _
    · split
      · cases a.value.constant? with
        | some n => exact ih _
        | none =>
          dsimp only
          rw [bind_assoc]
          exact bind_congr fun high => ih _
      · split
        · rw [CodeRange.listOf_eq, bind_assoc, bind_assoc]
          refine bind_congr fun c? => ?_
          cases c? with
          | none => exact ih b
          | some c =>
            show (some <$> _ >>= _) = complete (RangeSource.readAll s u (.list c))
            rw [RangeSource.complete_list]
            cases CodeRange.readList s u.bases u.lowAddress c <;> rfl
        · exact ih b

/-- The ranges of a unit, up to where they break off: before the first one, if the unit or its root
cannot be read. -/
def UnitHeader.readRanges (s : DebugSections) (h : UnitHeader) :
    List CodeRange × Option DebugError :=
  let source : Except DebugError (CompilationUnit × RangeSource) := do
    let u ← CompilationUnit.load s h
    return (u, ← Entry.sourceOf s u u.root.after {} u.root.attributes)
  match source with
  | .error x => ([], some x)
  | .ok (u, source) => source.readAll s u

theorem UnitHeader.complete_readRanges (s : DebugSections) (h : UnitHeader) :
    complete (h.readRanges s) = (do
      let u ← CompilationUnit.load s h
      u.root.ranges s u) := by
  unfold readRanges Entry.ranges
  cases CompilationUnit.load s h with
  | error x => rfl
  | ok u =>
    rw [ok_bind, ok_bind, Entry.rangesOf_eq]
    cases Entry.sourceOf s u u.root.after {} u.root.attributes <;> rfl

end Postmortem.Debug
