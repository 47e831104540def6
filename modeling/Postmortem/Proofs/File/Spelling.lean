import Mathlib.Tactic.Common
import Postmortem.File.System

/-!
# Spellings of a path

Paths that mean the same lead to the same place, as far as they lead anywhere. They need not do that
alike: a path with a slash at its end only leads to a directory.
-/
namespace Postmortem

namespace Files

variable {files : Files}

theorem step_of_not_isStep (location : Location) {name : String} (h : ¬ Path.isStep name = true) :
    step location name = location := by
  have hup : name ≠ ".." := by
    rintro rfl
    exact h (by decide)
  rw [step, if_neg hup, if_neg h]

/-- Only the steps of a path lead anywhere. -/
theorem foldl_step_filter (location : Location) (names : List String) :
    (names.filter Path.isStep).foldl step location = names.foldl step location := by
  induction names generalizing location with
  | nil => rfl
  | cons name rest ih =>
    by_cases h : Path.isStep name = true
    · rw [List.filter_cons_of_pos h]
      exact ih _
    · rw [List.filter_cons_of_neg h, ih, List.foldl_cons, step_of_not_isStep location h]

theorem eq_of_follow? {location place : Location} {names : List String}
    (h : files.follow? location names = some place) : place = names.foldl step location := by
  induction names generalizing location with
  | nil => exact (Option.some.inj h).symm
  | cons name rest ih =>
    rw [follow?] at h
    split at h
    · exact ih h
    · cases h

theorem eq_of_locate? {path : String} {place : Location} (h : files.locate? path = some place) :
    place = (Path.meaning path).steps.foldl step (files.origin path) := by
  unfold locate? at h
  split at h
  · cases h
  · rw [eq_of_follow? h]
    exact (foldl_step_filter _ _).symm

theorem origin_eq_of_meaning {first path : String} (h : Path.meaning first = Path.meaning path) :
    files.origin first = files.origin path := by
  have habsolute : Path.isAbsolute first = Path.isAbsolute path :=
    congrArg Path.Meaning.isAbsolute h
  rw [origin, origin, habsolute]

/-- A path leads to what another one leads to that means the same, unless it leads nowhere. -/
theorem entry?_eq_of_meaning {first path : String} (h : Path.meaning first = Path.meaning path)
    (hfirst : files.entry? first ≠ none) (hpath : files.entry? path ≠ none) :
    files.entry? first = files.entry? path := by
  have hlocated : ∀ path, files.entry? path ≠ none → ∃ place, files.locate? path = some place := by
    intro path hpath
    cases hplace : files.locate? path with
    | none =>
      rw [Files.entry?, hplace] at hpath
      exact absurd rfl hpath
    | some place => exact ⟨place, rfl⟩
  obtain ⟨place, hplace⟩ := hlocated first hfirst
  obtain ⟨place', hplace'⟩ := hlocated path hpath
  have hsame : place = place' := by
    rw [eq_of_locate? hplace, eq_of_locate? hplace', h, origin_eq_of_meaning h]
  rw [Files.entry?, Files.entry?, hplace, hplace', hsame]

end Files

end Postmortem
