import Postmortem.Proofs.Image.NearestExport
import Postmortem.Symbol.Chain

/-!
# Where symbols start in a process

A source that reads an image finds a function of it, and says how far the address is from where the
function starts. Taken back from the address in the process, this distance leads to where the
function is in the process: at its place in the image, counted from where the image is loaded.
-/
namespace Postmortem

namespace Debug

/-! ## Functions of the debug information -/

theorem Entry.start_le_of_startOf? {ranges : List CodeRange} {address start : Nat}
    (h : startOf? ranges address = some start) : start ≤ address := by
  unfold startOf? at h
  dsimp only at h
  split at h
  · next hany =>
    obtain ⟨r, hr, hcontains⟩ := List.any_eq_true.mp hany
    rw [CodeRange.contains, Bool.and_eq_true, decide_eq_true_eq, decide_eq_true_eq] at hcontains
    have hleast := (List.min?_eq_some_iff.mp h).2 r.start (List.mem_map_of_mem hr)
    omega
  · cases h

theorem Entry.start_le_of_coveringStart? {entry : Entry} {s : DebugSections} {u : CompilationUnit}
    {address start : Nat} (h : entry.coveringStart? s u address = .ok (some start)) :
    start ≤ address := by
  obtain ⟨bounds, -, h⟩ := ok_of_bind h
  cases bounds with
  | some r =>
    dsimp only at h
    split at h
    · next hcontains =>
      obtain rfl := Option.some.inj (Except.ok.inj h)
      rw [CodeRange.contains, Bool.and_eq_true, decide_eq_true_eq] at hcontains
      exact hcontains.1
    · cases h
  | none =>
    obtain ⟨value, -, h⟩ := ok_of_bind h
    cases value with
    | none => cases h
    | some value =>
      obtain ⟨ranges, -, h⟩ := ok_of_bind h
      exact start_le_of_startOf? (Except.ok.inj h)

/-- The distance of the address from the start of the function that is found. -/
theorem CompilationUnit.start_add_displacement {s : DebugSections} {u : CompilationUnit}
    {address : Nat} {ending : Option DebugError} {entries : List Entry} {f : FunctionMatch}
    (h : searchEntries (loadAt s) s u address ending entries = .ok (some f)) :
    f.start + f.displacement = address := by
  induction entries with
  | nil =>
    cases ending <;> cases h
  | cons entry rest ih =>
    rw [searchEntries] at h
    split at h
    · exact ih h
    · obtain ⟨covering, hcovering, h⟩ := ok_of_bind h
      cases covering with
      | none => exact ih h
      | some start =>
        obtain ⟨name, -, h⟩ := ok_of_bind h
        have hle := Entry.start_le_of_coveringStart? hcovering
        obtain rfl := Option.some.inj (Except.ok.inj h)
        exact Nat.add_sub_cancel' hle

theorem DebugInfo.start_add_displacement {d : DebugInfo} {address : Nat} {f : FunctionMatch}
    (h : d.function? address = .ok (some f)) : f.start + f.displacement = address := by
  unfold function? searchFunction at h
  split at h
  · cases h
  · obtain ⟨u, -, h⟩ := ok_of_bind h
    exact CompilationUnit.start_add_displacement h

end Debug

namespace SymbolSource

/-- Whether a source that reads images knows a function of an image by a name, which starts at an
address of the process in which the image is loaded. -/
inductive KnowsFunction (q : SymbolQuery) (name : String) : SymbolSource → UInt64 → Prop
  | symbolTable {image : Image} {f : FunctionSymbol} (himage : q.contents.image = some image)
      (hf : f ∈ image.functions)
      (hname : name = FunctionSymbol.shownName (!image.is64Bit) f.name) :
      KnowsFunction q name .symbolTable (q.moduleBase + (f.address - image.base))
  | debugInfo {image : Image} {debug : Debug.DebugInfo} {address : Nat} {f : Debug.FunctionMatch}
      (himage : q.contents.image = some image) (hdebug : q.contents.debug = some debug)
      (hf : debug.function? address = .ok (some f)) (hname : name = f.name) :
      KnowsFunction q name .debugInfo (q.moduleBase + (.ofNat f.start - image.base))
  | exports {image : Image} {table : ExportTable} {e : ExportEntry}
      (himage : q.contents.image = some image) (htable : image.exports = .ok table)
      (he : e ∈ table.entries) (hname : e.name = some name) :
      KnowsFunction q name .exports (q.moduleBase + e.rva.toUInt64)

/-- The sources that read images. -/
def readingImages : List SymbolSource := [.symbolTable, .debugInfo, .exports]

end SymbolSource

namespace SymbolQuery

variable {q : SymbolQuery}

/-- What is found was found at the address within the image. -/
theorem search_eq_some_iff {α β : Type} {part : ModuleImage → Option α}
    {find : α → UInt64 → Except LookupError (Option β)} {found : β} :
    q.search part find = .ok (some found) ↔
      ∃ x image, part q.contents = some x ∧ q.contents.image = some image ∧
        q.moduleBase ≤ q.address ∧
          find x (image.base + (q.address - q.moduleBase)) = .ok (some found) := by
  unfold search imageAddress? ModuleImage.imageAddress?
  cases part q.contents with
  | none => simp
  | some x =>
    cases q.contents.image with
    | none => simp
    | some image =>
      by_cases hle : q.moduleBase ≤ q.address
      · simp [hle]
      · simp [hle]

/-- An address that is found by its place in the image is found in the process. -/
theorem sub_displacement_eq {base start displacement : UInt64}
    (h : start + displacement = base + (q.address - q.moduleBase)) :
    q.address - displacement = q.moduleBase + (start - base) := by
  grind

end SymbolQuery

namespace SymbolSource

variable {q : SymbolQuery} {symbol : FoundSymbol}

theorem knowsFunction_of_symbolTable (h : symbolTable.symbol q = .ok (some symbol)) :
    symbolTable.KnowsFunction q symbol.name (q.address - symbol.displacement) := by
  obtain ⟨image, _, himage, himage', -, hfind⟩ := SymbolQuery.search_eq_some_iff.mp h
  obtain rfl := Option.some.inj (himage.symm.trans himage')
  obtain ⟨m, hm, rfl⟩ := Option.map_eq_some_iff.mp (Except.ok.inj hfind)
  obtain ⟨before, f, after, hsplit, hf, -⟩ := SymbolMatch.exists_of_nearest? hm
  obtain ⟨-, -, hdisplacement, -, -, hname⟩ := SymbolMatch.ofFunction?_eq_some_iff.mp hf
  have hsum : f.address + m.displacement = image.base + (q.address - q.moduleBase) := by
    rw [hdisplacement]
    grind
  rw [show (ofMatch m).displacement = m.displacement from rfl, SymbolQuery.sub_displacement_eq hsum]
  exact .symbolTable himage (by rw [hsplit]; simp) hname

theorem knowsFunction_of_debugInfo (h : debugInfo.symbol q = .ok (some symbol)) :
    debugInfo.KnowsFunction q symbol.name (q.address - symbol.displacement) := by
  obtain ⟨debug, image, hdebug, himage, -, hfind⟩ := SymbolQuery.search_eq_some_iff.mp h
  cases hfunction : debug.function? (image.base + (q.address - q.moduleBase)).toNat with
  | error e =>
    rw [hfunction] at hfind
    cases hfind
  | ok found =>
    rw [hfunction] at hfind
    obtain ⟨f, rfl, rfl⟩ := Option.map_eq_some_iff.mp (Except.ok.inj hfind)
    have hsum : UInt64.ofNat f.start + .ofNat f.displacement =
        image.base + (q.address - q.moduleBase) := by
      rw [← UInt64.ofNat_add, Debug.DebugInfo.start_add_displacement hfunction, UInt64.ofNat_toNat]
    rw [SymbolQuery.sub_displacement_eq hsum]
    exact .debugInfo himage hdebug hfunction rfl

theorem knowsFunction_of_exports (h : exports.symbol q = .ok (some symbol)) :
    exports.KnowsFunction q symbol.name (q.address - symbol.displacement) := by
  obtain ⟨image, _, himage, himage', -, hfind⟩ := SymbolQuery.search_eq_some_iff.mp h
  obtain rfl := Option.some.inj (himage.symm.trans himage')
  cases htable : image.exports with
  | error e =>
    rw [htable] at hfind
    cases hfind
  | ok table =>
    rw [htable] at hfind
    obtain ⟨m, hm, rfl⟩ := Option.map_eq_some_iff.mp (Except.ok.inj hfind)
    obtain ⟨_, table', e, -, htable', he, hshows⟩ := Image.nearestExport?_eq_some_iff.mp hm
    have haddress : m.address = image.base + e.rva.toUInt64 := by
      rw [← UInt64.toNat_inj, hshows.address_eq, UInt64.toNat_add, UInt32.toNat_toUInt64,
        ← hshows.address_eq, Nat.mod_eq_of_lt m.address.toNat_lt]
    have hsum : m.address + m.displacement = image.base + (q.address - q.moduleBase) := by
      rw [← UInt64.toNat_inj, UInt64.toNat_add, hshows.displacement_eq]
      exact Nat.mod_eq_of_lt (UInt64.toNat_lt _)
    have hstart : q.address - m.displacement = q.moduleBase + e.rva.toUInt64 := by
      rw [SymbolQuery.sub_displacement_eq hsum, haddress]
      grind
    rw [show (ofMatch m).displacement = m.displacement from rfl, hstart]
    exact .exports himage htable' he.mem hshows.name_eq

/-- The distance that a source gives is that of the address from where the function starts. -/
theorem knowsFunction_of_symbol {source : SymbolSource} (hsource : source ∈ readingImages)
    (h : source.symbol q = .ok (some symbol)) :
    source.KnowsFunction q symbol.name (q.address - symbol.displacement) := by
  obtain rfl | rfl | rfl : source = symbolTable ∨ source = debugInfo ∨ source = exports := by
    simpa [readingImages] using hsource
  · exact knowsFunction_of_symbolTable h
  · exact knowsFunction_of_debugInfo h
  · exact knowsFunction_of_exports h

end SymbolSource

end Postmortem
