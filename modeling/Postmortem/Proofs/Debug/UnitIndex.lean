import Mathlib
import Postmortem.Proofs.Debug.RangeStreams

/-!
# What the index of units holds

The index begins with what the section of address ranges lists, which is nothing if that section
breaks off anywhere. The units it does not mention follow in their own order, each with its own
ranges, or with none where these break off. No unit has a part in what the index holds of another.
-/
namespace Postmortem.Debug

/-! ## Units follow each other -/

namespace Decoder

variable {c rest : Cursor}

theorem stop_of_number {n v : Nat} (h : number n c = .ok (v, rest)) : rest.stop = c.stop := by
  unfold number at h
  split at h
  · split at h
    · cases h
      rfl
    · cases h
  · cases h

theorem stop_of_split {n : Nat} {part : Cursor} (h : split n c = .ok (part, rest)) :
    rest.stop = c.stop := by
  unfold split at h
  split at h
  · cases h
    rfl
  · cases h

theorem stop_of_initialLength {r : Nat × Bool} (h : initialLength c = .ok (r, rest)) :
    rest.stop = c.stop := by
  obtain ⟨v, c', hv, h⟩ := Decoder.ok_of_bind h
  split at h
  · cases h
    exact stop_of_number hv
  · split at h
    · obtain ⟨w, c'', hw, h⟩ := Decoder.ok_of_bind h
      cases h
      rw [stop_of_number hw, stop_of_number hv]
    · cases h

end Decoder

namespace UnitHeader

variable {c rest : Cursor} {h : UnitHeader}

theorem stop_of_read (hread : read c = .ok (h, rest)) : rest.stop = c.stop := by
  obtain ⟨_, c₁, hget, hread⟩ := Decoder.ok_of_bind hread
  cases hget
  obtain ⟨_, c₂, hlength, hread⟩ := Decoder.ok_of_bind hread
  obtain ⟨_, c₃, hsplit, hread⟩ := Decoder.ok_of_bind hread
  obtain ⟨_, _, hread⟩ := Postmortem.ok_of_bind hread
  cases hread
  rw [Decoder.stop_of_split hsplit, Decoder.stop_of_initialLength hlength]

/-- A unit starts where it is read. -/
theorem start_eq_of_read (hread : read c = .ok (h, rest)) : h.start = c.position := by
  apply start_of_read
  unfold Decoder.readAt
  rw [hread]
  rfl

/-- The next unit is read behind the place where this one is. -/
theorem position_lt_of_read (hread : read c = .ok (h, rest))
    (hless : rest.remaining < c.remaining) : c.position < rest.position := by
  rw [Cursor.remaining, Cursor.remaining, stop_of_read hread] at hless
  omega

theorem position_le_of_mem_readAll (hmem : h ∈ (readAll c).1) : c.position ≤ h.start := by
  fun_induction readAll c with
  | case1 => cases hmem
  | case2 => cases hmem
  | case3 c _ head rest hread hless headers ending hrest ih =>
    rw [hrest] at ih
    obtain rfl | hmem := List.mem_cons.mp hmem
    · exact (start_eq_of_read hread).ge
    · exact (position_lt_of_read hread hless).le.trans (ih hmem)
  | case4 c _ head rest hread =>
    obtain rfl := List.mem_singleton.mp hmem
    exact (start_eq_of_read hread).ge

/-- The units of a section are in the order of the places where they start. -/
theorem pairwise_start_readAll (c : Cursor) :
    (readAll c).1.Pairwise fun h h' => h.start < h'.start := by
  fun_induction readAll c with
  | case1 => exact .nil
  | case2 => exact .nil
  | case3 c _ head rest hread hless headers ending hrest ih =>
    rw [hrest] at ih
    refine .cons (fun h hmem => ?_) ih
    have hmem : h ∈ (readAll rest).1 := by rwa [hrest]
    have hlt := position_lt_of_read hread hless
    have hle := position_le_of_mem_readAll hmem
    have hstart := start_eq_of_read hread
    omega
  | case4 => exact List.pairwise_singleton _ _

end UnitHeader

/-! ## What a unit gives -/

/-- What the index may take from a unit: all of its ranges that are not empty, or nothing where they
break off. -/
def UnitRange.given (s : DebugSections) (h : UnitHeader) : List UnitRange :=
  match h.readRanges s with
  | (ranges, none) => nonEmpty h.start ranges
  | (_, some _) => []

theorem UnitRange.mem_nonEmpty {unit : Nat} {ranges : List CodeRange} {r : UnitRange}
    (h : r ∈ nonEmpty unit ranges) : r.start < r.stop ∧ r.unit = unit := by
  obtain ⟨range, hrange, rfl⟩ := List.mem_map.mp h
  exact ⟨by simpa using (List.mem_filter.mp hrange).2, rfl⟩

theorem UnitRange.mem_given {s : DebugSections} {h : UnitHeader} {r : UnitRange}
    (hr : r ∈ given s h) : r.start < r.stop ∧ r.unit = h.start := by
  unfold given at hr
  split at hr
  · exact mem_nonEmpty hr
  · cases hr

theorem UnitRange.ofCode_eq (unit : Nat) (ranges : List CodeRange) :
    ofCode unit ranges = nonEmpty unit ranges := by
  induction ranges with
  | nil => rfl
  | cons r ranges ih =>
    by_cases h : r.start < r.stop <;>
      simp_all [ofCode, nonEmpty, CodeRange.isEmpty]

theorem AddressIndex.rangesOfUnit_eq (s : DebugSections) (h : UnitHeader) :
    rangesOfUnit s h = UnitRange.given s h := by
  unfold rangesOfUnit UnitRange.given
  dsimp only
  rw [← UnitHeader.complete_readRanges, UnitRange.ofCode_eq]
  rcases h.readRanges s with ⟨ranges, _ | x⟩ <;> rfl

section WithoutAddressRanges

variable (s : DebugSections) (data : Bytes)

theorem load_withAddressRanges (h : UnitHeader) :
    CompilationUnit.load { s with addressRanges := data } h = CompilationUnit.load s h := rfl

theorem sourceOf_withAddressRanges (u : CompilationUnit) (after : Except DebugError Cursor)
    (b : CodeBounds) (attributes : List Attribute) :
    Entry.sourceOf { s with addressRanges := data } u after b attributes =
      Entry.sourceOf s u after b attributes := by
  induction attributes generalizing b with
  | nil => rfl
  | cons a rest ih =>
    simp only [Entry.sourceOf, ih]
    rfl

theorem RangeSource.readAll_withAddressRanges (u : CompilationUnit) (source : RangeSource) :
    source.readAll { s with addressRanges := data } u = source.readAll s u := by
  cases source <;> rfl

/-- The ranges that a unit gives are found without the section of address ranges. -/
theorem UnitRange.given_withAddressRanges (h : UnitHeader) :
    given { s with addressRanges := data } h = given s h := by
  have hranges : h.readRanges { s with addressRanges := data } = h.readRanges s := by
    simp only [UnitHeader.readRanges, load_withAddressRanges, sourceOf_withAddressRanges,
      RangeSource.readAll_withAddressRanges]
  rw [given, hranges, given]

end WithoutAddressRanges

/-! ## The index -/

/-- One of the ranges is for the unit. -/
def Mentions (listed : List UnitRange) (h : UnitHeader) : Prop := ∃ r ∈ listed, r.unit = h.start

instance (listed : List UnitRange) (h : UnitHeader) : Decidable (Mentions listed h) :=
  inferInstanceAs (Decidable (∃ r ∈ listed, r.unit = h.start))

namespace AddressIndex

/-- The units up to the first one whose header cannot be read. -/
def units (s : DebugSections) : List UnitHeader := (UnitHeader.readAll (.ofSection s.info)).1

/-- The sets of the section of address ranges. -/
def sets (s : DebugSections) : List RangeSet × Option DebugError :=
  RangeSet.readAll (.ofSection s.addressRanges)

/-- The ranges of the units that are not mentioned. -/
def unlisted (s : DebugSections) (listed : List UnitRange) (units : List UnitHeader) :
    List UnitRange :=
  (units.filter fun h => ¬ Mentions listed h).flatMap (UnitRange.given s)

/-- The index has the ranges that the section of address ranges lists, and then those of the units
it does not mention. It lists nothing if it breaks off. -/
structure Indexes (x : AddressIndex) (s : DebugSections) (listed : List UnitRange) : Prop where
  ranges : x.ranges = listed ++ unlisted s listed (units s)
  through : RangeSet.ReadsThrough (sets s) → listed = (sets s).1.flatMap RangeSet.ranges
  brokenOff : ¬ RangeSet.ReadsThrough (sets s) → listed = []

variable {s : DebugSections} {x : AddressIndex} {listed : List UnitRange}

theorem complete_eq (s : DebugSections) (listed : List UnitRange) (units : List UnitHeader) :
    complete s listed units = ⟨listed ++ unlisted s listed units⟩ := by
  have hmentions (h : UnitHeader) :
      (!(Std.HashSet.ofList (listed.map (·.unit))).contains h.start) =
        decide (¬ Mentions listed h) := by
    rw [Bool.eq_iff_iff, Std.HashSet.contains_ofList]
    simp [Mentions]
  simp only [complete, unlisted, hmentions, funext (rangesOfUnit_eq s)]

theorem build_indexes (s : DebugSections) : ∃ listed, (build s).Indexes s listed := by
  refine ⟨_, congrArg ranges (complete_eq s _ _), fun h => ?_, fun h => ?_⟩
  · obtain ⟨_, hranges⟩ | ⟨hnot, _⟩ := RangeSet.readSets_cases (.ofSection s.addressRanges)
    · rw [hranges]
      rfl
    · exact absurd h hnot
  · obtain ⟨hthrough, _⟩ | ⟨_, x, hx⟩ := RangeSet.readSets_cases (.ofSection s.addressRanges)
    · exact absurd hthrough h
    · rw [hx]
      rfl

/-- A section of address ranges that breaks off counts as one that the image does not have. -/
theorem build_of_brokenOff (h : ¬ RangeSet.ReadsThrough (sets s)) :
    build s = build { s with addressRanges := .empty } := by
  obtain ⟨listed, hlisted⟩ := build_indexes s
  obtain ⟨listed', hlisted'⟩ := build_indexes { s with addressRanges := .empty }
  have hsets : sets { s with addressRanges := .empty } = ([], none) := by
    unfold sets
    rw [RangeSet.readAll]
    rfl
  have hthrough : RangeSet.ReadsThrough (sets { s with addressRanges := .empty }) := by
    rw [hsets]
    exact ⟨rfl, by simp⟩
  obtain rfl : listed = [] := hlisted.brokenOff h
  obtain rfl : listed' = [] := by rw [hlisted'.through hthrough, hsets]; rfl
  have hranges : (build s).ranges = (build { s with addressRanges := .empty }).ranges := by
    rw [hlisted.ranges, hlisted'.ranges]
    simp only [unlisted, funext (UnitRange.given_withAddressRanges s _)]
    rfl
  exact congrArg AddressIndex.mk hranges

theorem Indexes.start_lt_stop (h : x.Indexes s listed) : ∀ r ∈ x.ranges, r.start < r.stop := by
  intro r hr
  rw [h.ranges, List.mem_append] at hr
  obtain hr | hr := hr
  · by_cases hthrough : RangeSet.ReadsThrough (sets s)
    · rw [h.through hthrough, List.mem_flatMap] at hr
      obtain ⟨set, _, hr⟩ := hr
      exact (UnitRange.mem_nonEmpty hr).1
    · rw [h.brokenOff hthrough] at hr
      cases hr
  · obtain ⟨u, _, hr⟩ := List.mem_flatMap.mp hr
    exact (UnitRange.mem_given hr).1

/-- Ranges that are given by other units are for those. -/
theorem filter_unlisted_of_ne {units : List UnitHeader} {u : UnitHeader}
    (hne : ∀ other ∈ units, other.start ≠ u.start) :
    (unlisted s listed units).filter (·.unit = u.start) = [] := by
  rw [List.filter_eq_nil_iff]
  intro r hr
  obtain ⟨other, hother, hr⟩ := List.mem_flatMap.mp hr
  have hmem := (List.mem_filter.mp hother).1
  simpa [(UnitRange.mem_given hr).2] using hne other hmem

theorem unlisted_append (before after : List UnitHeader) :
    unlisted s listed (before ++ after) = unlisted s listed before ++ unlisted s listed after := by
  simp [unlisted]

theorem unlisted_cons (u : UnitHeader) (after : List UnitHeader) :
    unlisted s listed (u :: after) =
      (if Mentions listed u then [] else UnitRange.given s u) ++ unlisted s listed after := by
  by_cases h : Mentions listed u <;> simp [unlisted, h]

/-- What the index holds of a unit is listed, or else it is what that unit gives. -/
theorem Indexes.filter_unit (h : x.Indexes s listed) {u : UnitHeader} (hu : u ∈ units s) :
    x.ranges.filter (·.unit = u.start) =
      if Mentions listed u then listed.filter (·.unit = u.start) else UnitRange.given s u := by
  obtain ⟨before, after, hunits⟩ := List.append_of_mem hu
  have hpairwise := UnitHeader.pairwise_start_readAll (.ofSection s.info)
  rw [← units, hunits, List.pairwise_append, List.pairwise_cons] at hpairwise
  obtain ⟨_, ⟨hafter, _⟩, hbefore⟩ := hpairwise
  rw [h.ranges, hunits, unlisted_append, unlisted_cons]
  simp only [List.filter_append]
  rw [filter_unlisted_of_ne fun o ho => (hbefore o ho u List.mem_cons_self).ne,
    filter_unlisted_of_ne fun o ho => (hafter o ho).ne']
  split
  · simp
  · next hnot =>
    have hlisted : listed.filter (·.unit = u.start) = [] := by
      rw [List.filter_eq_nil_iff]
      exact fun r hr hunit => hnot ⟨r, hr, by simpa using hunit⟩
    have hgiven : (UnitRange.given s u).filter (·.unit = u.start) = UnitRange.given s u := by
      rw [List.filter_eq_self]
      exact fun r hr => by simpa using (UnitRange.mem_given hr).2
    rw [hlisted, hgiven]
    simp

/-- A unit whose ranges break off leaves those of all others in the index. -/
theorem Indexes.without_unit (h : x.Indexes s listed) {u : UnitHeader}
    {before after : List UnitHeader}
    (hunits : units s = before ++ u :: after) (hu : (u.readRanges s).2 ≠ none) :
    x.ranges = listed ++ unlisted s listed (before ++ after) := by
  have hgiven : UnitRange.given s u = [] := by
    unfold UnitRange.given
    split
    · next hread => simp [hread] at hu
    · rfl
  rw [h.ranges, hunits, unlisted_append, unlisted_append, unlisted_cons, hgiven]
  simp

/-- An index can be built from any sections, and no unit is lost in it: it holds what the section of
address ranges lists, unless that section breaks off, and all readable ranges of the units that are
not mentioned there. -/
theorem build_complete (s : DebugSections) :
    ∃ listed, (build s).Indexes s listed ∧
      (∀ r ∈ (build s).ranges, r.start < r.stop) ∧
      (¬ RangeSet.ReadsThrough (sets s) → build s = build { s with addressRanges := .empty }) ∧
      (∀ u ∈ units s, (build s).ranges.filter (·.unit = u.start) =
        if Mentions listed u then listed.filter (·.unit = u.start) else UnitRange.given s u) ∧
      (∀ before u after, units s = before ++ u :: after → (u.readRanges s).2 ≠ none →
        (build s).ranges = listed ++ unlisted s listed (before ++ after)) ∧
      ∀ address r, (build s).find? address = some r ↔ (build s).HasFirst address r := by
  obtain ⟨listed, h⟩ := build_indexes s
  exact ⟨listed, h, h.start_lt_stop, build_of_brokenOff, fun _ hu => h.filter_unit hu,
    fun _ _ _ hunits hu => h.without_unit hunits hu, (build s).find?_eq_some_iff⟩

end AddressIndex

end Postmortem.Debug
