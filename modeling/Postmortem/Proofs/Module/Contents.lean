import Mathlib.Tactic.Common
import Postmortem.Module.Image
import Postmortem.Proofs.Except

/-!
# What is read of a module

An image is never larger than the limit, whether it comes from a file or out of a process, and only
an image from a file has debug information.
-/
namespace Postmortem

namespace Image

/-- A parsed image is the buffer it was parsed from, in the layout that was asked for. -/
theorem data_of_parse {data : Bytes} {options : ImageOptions} {path : Option String} {image : Image}
    (h : parse data options path = .ok image) :
    image.data = data ∧ image.options = options := by
  obtain ⟨dos, _, h⟩ := ok_of_bind h
  obtain ⟨headers, _, h⟩ := ok_of_bind h
  obtain ⟨sectionHeaders, _, h⟩ := ok_of_bind h
  dsimp only at h
  split at h
  all_goals
    obtain ⟨symbolTable, _, h⟩ := ok_of_bind h
    obtain rfl := Except.ok.inj h
    exact ⟨rfl, rfl⟩

theorem size_le_of_read {files : Files} {path : String} {limit : Nat} {data : Bytes}
    (h : files.read path limit = .ok data) : data.size ≤ limit := by
  unfold Files.read at h
  split at h
  · split at h
    · next hsize =>
      obtain rfl := Except.ok.inj h
      exact hsize
    · cases h
  · cases h
  · cases h

theorem size_le_of_openFile {files : Files} {path : String} {limit : Nat} {image : Image}
    (h : openFile files path limit = .ok image) : image.data.size ≤ limit := by
  unfold openFile at h
  split at h
  · next data hread =>
    rw [(data_of_parse h).1]
    exact size_le_of_read hread
  · split at h <;> cases h
  · cases h

end Image

namespace ModuleImage

section Copy

variable (processes : ProcessMap) (p : ProcessId) (b : UInt64) (size : Nat)

/-- The copy of an image after its first `n` pages were copied. -/
def firstPages (n : Nat) : Bytes :=
  (List.range n).foldl (fun copy i =>
    match processes.readMemory? p (b + UInt64.ofNat (i * pageSize)) pageSize with
    | some page => copy.overwrite (i * pageSize) page
    | none => copy) (.zeros size)

theorem copyPages_eq_firstPages : copyPages processes p b size =
    firstPages processes p b size ((size + pageSize - 1) / pageSize) := rfl

theorem firstPages_succ (n : Nat) : firstPages processes p b size (n + 1) =
    match processes.readMemory? p (b + UInt64.ofNat (n * pageSize)) pageSize with
    | some page => (firstPages processes p b size n).overwrite (n * pageSize) page
    | none => firstPages processes p b size n := by
  rw [firstPages, List.range_succ, List.foldl_append]
  rfl

theorem size_firstPages (n : Nat) : (firstPages processes p b size n).size = size := by
  induction n with
  | zero => exact Bytes.size_zeros size
  | succ n ih =>
    rw [firstPages_succ]
    split
    · rw [Bytes.size_overwrite, ih]
    · exact ih

theorem size_copyPages : (copyPages processes p b size).size = size := size_firstPages ..

end Copy

section Memory

variable {processes : ProcessMap} {p : ProcessId} {b : UInt64} {limit : Nat}

/-- What becomes of an image in memory when its first page can be read. -/
theorem ofMemory_of_read {first : Bytes} (h : processes.readMemory? p b pageSize = some first)
    (limit : Nat) : ofMemory processes p b limit =
      match Image.ofMemoryBytes first with
      | .error e => .error (.ofImageError e)
      | .ok headers =>
        if limit < headers.sizeOfImage.toNat then
          .error (.ofAccessError (.tooLarge limit headers.sizeOfImage.toNat))
        else (Image.ofMemoryBytes (copyPages processes p b headers.sizeOfImage.toNat)).mapError
          .ofImageError := by
  rw [ofMemory, h]
  dsimp only
  cases Image.ofMemoryBytes first with
  | error e => rfl
  | ok headers =>
    simp only [Except.mapError, ok_bind]
    split <;> rfl

/-- An image that can be read is that of a copy, which has the size that the first page states. -/
theorem exists_copy_of_ofMemory {image : Image} (h : ofMemory processes p b limit = .ok image) :
    ∃ size ≤ limit, Image.ofMemoryBytes (copyPages processes p b size) = .ok image := by
  cases hread : processes.readMemory? p b pageSize with
  | none =>
    rw [ofMemory, hread] at h
    cases h
  | some first =>
    rw [ofMemory_of_read hread] at h
    split at h
    · cases h
    · next headers _ =>
      split at h
      · cases h
      · next hsize =>
        refine ⟨_, Nat.le_of_not_lt hsize, ?_⟩
        cases hparse : Image.ofMemoryBytes (copyPages processes p b headers.sizeOfImage.toNat) with
        | error e => rw [hparse] at h; cases h
        | ok parsed => rw [hparse] at h; rw [Except.ok.inj h]

theorem size_le_of_ofMemory {image : Image} (h : ofMemory processes p b limit = .ok image) :
    image.data.size ≤ limit := by
  obtain ⟨size, hsize, hparse⟩ := exists_copy_of_ofMemory h
  rw [(Image.data_of_parse hparse).1, size_copyPages]
  exact hsize

end Memory

/-- What is true of everything that is read of a module. -/
structure IsSound (limit : Nat) (m : ModuleImage) : Prop where
  size_le : ∀ image, m.image = some image → image.data.size ≤ limit
  /-- Debug information comes with an image from a file. -/
  file_of_debug : ∀ debug, m.debug = some debug →
    ∃ image, m.image = some image ∧ image.options.layout = .file

theorem isSound_build (files : Files) (processes : ProcessMap) (limit : Nat) (p : ProcessId)
    (b : UInt64) (path : Option String) : (build files processes limit p b path).IsSound limit := by
  constructor
  · intro image h
    change find? files processes limit p b path = some image at h
    unfold find? at h
    split at h
    · next found hfound =>
      obtain rfl := Option.some.inj h
      obtain ⟨file, _, hopen⟩ := Option.bind_eq_some_iff.mp hfound
      cases hresult : Image.openFile files file limit with
      | error e => rw [hresult] at hopen; cases hopen
      | ok opened =>
        rw [hresult] at hopen
        rw [← Option.some.inj hopen]
        exact Image.size_le_of_openFile hresult
    · cases hresult : ofMemory processes p b limit with
      | error e => rw [hresult] at h; cases h
      | ok loaded =>
        rw [hresult] at h
        rw [← Option.some.inj h]
        exact size_le_of_ofMemory hresult
  · intro debug h
    change (find? files processes limit p b path).bind debugInfo? = some debug at h
    obtain ⟨image, himage, hdebug⟩ := Option.bind_eq_some_iff.mp h
    refine ⟨image, himage, ?_⟩
    unfold debugInfo? at hdebug
    split at hdebug
    · next hlayout => exact hlayout
    · cases hdebug

end ModuleImage

end Postmortem
