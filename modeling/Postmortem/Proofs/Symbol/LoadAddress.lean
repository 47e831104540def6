import Postmortem.Proofs.Module.Contents
import Postmortem.Symbol.Chain

/-!
# Where an image is loaded

The sources that read an image are asked for an address within it: the distance from the base that
the module has, counted from the base that the image prefers. They do not see where the image is
loaded, in which process, and by which path its file was opened.
-/
namespace Postmortem

namespace Image

/-- The image as it is read from the same file by another path. -/
def withPath (image : Image) (path : Option String) : Image := { image with path }

theorem parse_withPath (data : Bytes) (options : ImageOptions) (first path : Option String) :
    parse data options path = (·.withPath path) <$> parse data options first := by
  unfold parse
  cases options.layout with
  | memory =>
    simp only [map_bind]
    rfl
  | file =>
    simp only [map_bind]
    rfl

/-- Paths that lead to the same file give the same image but for its path. -/
theorem openFile_withPath {files : Files} {first path : String} {limit : Nat} {image : Image}
    (hentry : files.entry? path = files.entry? first)
    (h : openFile files first limit = .ok image) :
    openFile files path limit = .ok (image.withPath (some path)) := by
  have hread : files.read path limit = files.read first limit := by
    rw [Files.read, Files.read, hentry]
  unfold openFile at h ⊢
  rw [hread]
  split at h
  · rw [parse_withPath _ _ (some first), h]
    rfl
  · split at h <;> cases h
  · cases h

/-- A path by which an image is opened leads somewhere. -/
theorem entry?_ne_none_of_openFile {files : Files} {path : String} {limit : Nat} {image : Image}
    (h : openFile files path limit = .ok image) : files.entry? path ≠ none := by
  intro hnone
  rw [openFile, Files.read, hnone] at h
  dsimp only at h
  split at h <;> cases h

end Image

theorem ModuleImage.debugInfo?_withPath (image : Image) (path : Option String) :
    debugInfo? (image.withPath path) = debugInfo? image := rfl

/-- What is read of a module whose file can be opened. -/
theorem ModuleImage.build_of_openFile {files : Files} {path : String} {limit : Nat} {image : Image}
    (h : Image.openFile files path limit = .ok image) (processes : ProcessMap) (p : ProcessId)
    (b : UInt64) :
    build files processes limit p b (some path) = ⟨some image, debugInfo? image⟩ := by
  simp [build, find?, h, Except.toOption]

/-- The address within the image of a module is counted from its base. -/
theorem ModuleImage.imageAddress?_add (m : ModuleImage) {b rva : UInt64} (h : b ≤ b + rva) :
    m.imageAddress? b (b + rva) = m.image.map (·.base + rva) := by
  have hdistance : b + rva - b = rva := by rw [UInt64.add_comm, UInt64.add_sub_cancel]
  unfold imageAddress?
  cases m.image with
  | none => rfl
  | some image => simp [h, hdistance]

/-- Whether two questions are about the same place of the same image, which may have been opened by
different paths. -/
structure SymbolQuery.SamePlace (q q' : SymbolQuery) : Prop where
  image : ∃ path, q'.contents.image = q.contents.image.map (·.withPath path)
  debug_eq : q'.contents.debug = q.contents.debug
  imageAddress?_eq : q'.imageAddress? = q.imageAddress?

namespace SymbolQuery.SamePlace

variable {q q' : SymbolQuery} (h : q.SamePlace q')

include h

/-- Where the image is searched in a way that does not look at its path, the same is found. -/
theorem search_image_eq {α : Type}
    {find : Image → UInt64 → Except LookupError (Option α)}
    (hfind : ∀ image path a, find (image.withPath path) a = find image a) :
    q'.search (·.image) find = q.search (·.image) find := by
  obtain ⟨path, himage⟩ := h.image
  unfold search
  dsimp only
  rw [himage, h.imageAddress?_eq]
  cases q.contents.image with
  | none => rfl
  | some image =>
    cases q.imageAddress? with
    | none => rfl
    | some a => exact hfind image path a

theorem search_debug_eq {α : Type}
    (find : Debug.DebugInfo → UInt64 → Except LookupError (Option α)) :
    q'.search (·.debug) find = q.search (·.debug) find := by
  unfold search
  dsimp only
  rw [h.debug_eq, h.imageAddress?_eq]

open SourceChain SymbolSource in
/-- The usual sources, without the symbol engine of the system, answer both questions alike. -/
theorem resolve?_standard_eq : (standard none).resolve? q' = (standard none).resolve? q := by
  have htable : symbolOf? q' symbolTable = symbolOf? q symbolTable :=
    congrArg (named? _) (h.search_image_eq fun _ _ _ => rfl)
  have hdebug : symbolOf? q' debugInfo = symbolOf? q debugInfo :=
    congrArg (named? _) (h.search_debug_eq _)
  have hexports : symbolOf? q' exports = symbolOf? q exports :=
    congrArg (named? _) (h.search_image_eq fun _ _ _ => rfl)
  have hline : lineOf? q' debugInfo = lineOf? q debugInfo :=
    congrArg known? (h.search_debug_eq _)
  -- The other two sources know no lines at all.
  have hline₁ : lineOf? q' symbolTable = lineOf? q symbolTable := rfl
  have hline₂ : lineOf? q' exports = lineOf? q exports := rfl
  simp only [resolve?, standard, Option.toList_none, List.map_nil, List.nil_append,
    List.cons_append, List.findSome?_cons, List.findSome?_nil, htable, hdebug, hexports, hline,
    hline₁, hline₂]

end SymbolQuery.SamePlace

end Postmortem
