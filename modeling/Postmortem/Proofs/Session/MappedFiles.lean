import Postmortem.Checked.Session
import Postmortem.Proofs.Overflow.Images
import Postmortem.Proofs.Symbolizer.Agreement

/-!
# Image files that are written over

An image file that was asked about stays mapped. When another file takes its place, or it is
removed, the mapping keeps the old bytes. When new bytes are written over the old ones in the same
file, they are in the mapping as well. The headers and the sections were read before, but the names
of functions and the exports are read when they are asked for, so then the new ones are seen.

Nothing is read again for it, and the table of image files stays as it is. But an answer may change.
Nor is there an answer after a question about a process that stops.
-/
namespace Postmortem

/-- The module with other bytes in its mapping. -/
def ModuleImage.withBytes (m : ModuleImage) (data : Bytes) : ModuleImage :=
  { m with image := m.image.map fun image => { image with data } }

/-- The module when its file was written over, as long as no exports were decoded, since they would
not change. Neither does debug information, which was copied. -/
def ReadModule.overwrite? (m : ReadModule) (data : Bytes) : Option ReadModule :=
  if m.contents.image.all (·.data.size = data.size) ∧ m.decoded.exports.known.size = 0 then
    some { contents := m.contents.withBytes data, decoded := { units := m.decoded.units } }
  else none

theorem ModuleImage.IsSound.withBytes {limit : Nat} {m : ModuleImage} {data : Bytes}
    (h : m.IsSound limit) (hsize : m.image.all (·.data.size = data.size) = true) :
    (m.withBytes data).IsSound limit := by
  constructor
  · intro image himage
    obtain ⟨old, hold, rfl⟩ := Option.map_eq_some_iff.mp himage
    rw [hold] at hsize
    rw [← of_decide_eq_true hsize]
    exact h.size_le old hold
  · intro debug hdebug
    obtain ⟨old, hold, hlayout⟩ := h.file_of_debug debug hdebug
    exact ⟨{ old with data }, by rw [ModuleImage.withBytes, hold, Option.map_some], hlayout⟩

namespace LiveSymbolizer

section Remember

variable {s : LiveSymbolizer} {p : ProcessId} {b : UInt64} {record : ModuleRecord}
  (hkeyed : s.cache.Keyed) (hrecord : s.cache.record? p b = some record) (m : ReadModule)

include hkeyed hrecord

/-- Only the record that is kept changes. -/
theorem remember_record? (q : ProcessId) (a : UInt64) :
    (s.remember p record m).cache.record? q a =
      if q = p ∧ a = b then some { record with read := some m } else s.cache.record? q a := by
  rw [← hkeyed p b record hrecord]
  exact s.cache.record?_keep p q a _ (s.cache.isAttached_of_record? p b hrecord)

theorem remember_total (weight : ModuleRecord → Nat)
    (h : weight { record with read := some m } = weight record) :
    (s.remember p record m).cache.total weight = s.cache.total weight := by
  have hkeep := s.cache.total_keep p weight { record with read := some m }
    (s.cache.isAttached_of_record? p b hrecord)
  have hold : s.cache.record? p record.base = some record := by
    rw [hkeyed p b record hrecord, hrecord]
  rw [hold, h] at hkeep
  exact Nat.add_right_cancel hkeep

end Remember

variable {limit : Nat} {s : LiveSymbolizer} {p : ProcessId} {b : UInt64} {record : ModuleRecord}
  {m : ReadModule}

/-- A record that was read stays in the account when it is kept with something else. -/
theorem Accounts.remember (h : s.Accounts limit) (hrecord : s.cache.record? p b = some record)
    (hloaded : record.isLoaded = true) (hm : m.contents.IsSound limit) :
    (s.remember p record m).Accounts limit := by
  have hcounters : (s.remember p record m).cache.counters = s.cache.counters :=
    s.cache.counters_keep p _
  have hunread : ModuleRecord.unread { record with read := some m } = record.unread := by
    rw [ModuleRecord.unread, ModuleRecord.unread, hloaded]
    rfl
  refine ⟨.keep h.keyed, h.limit_eq, ?_, ?_, ?_⟩
  · rw [hcounters]
    exact h.indexes_le
  · rw [hcounters, remember_total h.keyed hrecord m _ hunread]
    exact h.images_le
  · intro q a r held hr hheld
    rw [remember_record? h.keyed hrecord] at hr
    split at hr
    · obtain rfl := Option.some.inj hr
      obtain rfl := Option.some.inj hheld
      exact hm
    · exact h.isSound q a r held hr hheld

end LiveSymbolizer

theorem Session.Balanced.remember {made count : Nat} {s : LiveSymbolizer} {p : ProcessId}
    {b : UInt64} {record : ModuleRecord} {m : ReadModule} (h : Balanced made count s)
    (hrecord : s.cache.record? p b = some record) :
    Balanced made count (s.remember p record m) := by
  have hcounters : (s.remember p record m).cache.counters = s.cache.counters :=
    s.cache.counters_keep p _
  have hmade := h.made_eq
  refine ⟨.keep h.keyed, ?_⟩
  rw [ModuleCache.recordCount_eq_total] at hmade ⊢
  rw [hcounters, LiveSymbolizer.remember_total h.keyed hrecord m _ rfl]
  exact hmade

namespace OfflineImages

/-- Bytes are written over those of an image file that was read. -/
def overwrite? (o : OfflineImages) (path : String) (data : Bytes) : Option OfflineImages := do
  let process ← o.byPath.get? (Path.meaning path)
  let record ← o.symbolizer.cache.record? process 0
  let m ← (← record.read).overwrite? data
  return { o with symbolizer := o.symbolizer.remember process record m }

variable {o written : OfflineImages} {path : String} {data : Bytes} {limit : Nat}
  {paths : List String} {questions : List (String × UInt64)}

/-- Only the bytes of one image change when its file is written over. -/
theorem exists_of_overwrite? (h : o.overwrite? path data = some written) :
    ∃ p record m decoded, o.byPath.get? (Path.meaning path) = some p ∧
      o.symbolizer.cache.record? p 0 = some record ∧ record.contents = some m ∧
      m.image.all (·.data.size = data.size) = true ∧
      written = { o with
        symbolizer := o.symbolizer.remember p record ⟨m.withBytes data, decoded⟩ } := by
  simp only [overwrite?, ReadModule.overwrite?, Option.bind_eq_bind, Option.bind_eq_some_iff,
    Option.ite_none_right_eq_some] at h
  obtain ⟨p, hp, record, hrecord, m, hm, _, ⟨⟨hsize, -⟩, hm'⟩, h⟩ := h
  obtain rfl := Option.some.inj hm'
  refine ⟨p, record, m.contents, _, hp, hrecord, ?_, hsize, (Option.some.inj h).symm⟩
  rw [ModuleRecord.contents, hm, Option.map_some]

section Overwritten

variable (ho : o.Keeps limit paths questions) (h : o.overwrite? path data = some written)

include ho h

/-- What is kept of image files stays so, but for the bytes. -/
theorem Keeps.overwrite? : written.Keeps limit paths questions := by
  obtain ⟨p, record, m, decoded, hp, hrecord, hm, hsize, rfl⟩ := exists_of_overwrite? h
  have hloaded : record.isLoaded = true := by
    obtain ⟨read, hread, -⟩ := Option.map_eq_some_iff.mp hm
    rw [ModuleRecord.isLoaded, hread]
    rfl
  have hsound := (ho.accounts.isSound p 0 record m hrecord hm).withBytes hsize
  refine
    { tabulates := ho.tabulates.with_symbolizer fun q => o.symbolizer.cache.isAttached_keep p q _
      chain_eq := ho.chain_eq
      record := fun q b r hr => ?_
      accounts := ho.accounts.remember hrecord hloaded hsound
      balanced := ho.balanced.remember hrecord }
  dsimp only at hr
  rw [LiveSymbolizer.remember_record? ho.accounts.keyed hrecord] at hr
  split at hr
  · next hqb =>
    obtain ⟨rfl, rfl⟩ := hqb
    obtain rfl := Option.some.inj hr
    exact ho.record q 0 record hrecord
  · exact ho.record q b r hr

/-- The file was read, and holds the new bytes with the headers that were read before. -/
theorem HasRead.overwrite? {p : ProcessId} {m : ModuleImage}
    (hread : o.HasRead (Path.meaning path) p m) :
    written.HasRead (Path.meaning path) p (m.withBytes data) := by
  have hkeyed := (ho.overwrite? h).accounts.keyed
  obtain ⟨q, record, m', decoded, hq, hrecord, hm, -, rfl⟩ := exists_of_overwrite? h
  obtain rfl := Option.some.inj (hread.known.symm.trans hq)
  obtain ⟨r, hheld, hr⟩ := hread.held
  obtain ⟨later, hlater, hgrown⟩ := hheld.grown
  obtain rfl := Option.some.inj (hrecord.symm.trans hlater)
  obtain rfl := Option.some.inj ((hgrown.contents_eq m hr).symm.trans hm)
  have hafter := LiveSymbolizer.remember_record? ho.accounts.keyed hrecord
    ⟨m.withBytes data, decoded⟩ p 0
  rw [if_pos ⟨rfl, rfl⟩] at hafter
  exact ⟨hread.known, _, ⟨hkeyed, _, hafter, .refl _⟩, rfl⟩

end Overwritten

end OfflineImages

namespace Session

/-- Bytes are written over those of an image file, which no process has loaded and which is still
the one that was read. -/
def overwriteFile? (s : Session) (path : String) (data : Bytes) : Option Session := do
  let images ← s.symbolizer.images.overwrite? path data
  return { world := { s.world with files := s.world.files.write path data }
           symbolizer := { s.symbolizer with offline := some images } }

/-- After a file was written over, nothing is read again, and questions about it are answered from
the new bytes with the headers that were read before. Nothing that is kept of processes changes. -/
theorem overwriteFile?_answersFrom {s written : Session} {limit : Nat} {paths : List String}
    {questions : List (String × UInt64)} {path first : String} {p : ProcessId} {m : ModuleImage}
    {data : Bytes} (hs : s.symbolizer.images.Keeps limit paths questions)
    (hread : s.symbolizer.images.HasRead (Path.meaning path) p m)
    (hfirst : Path.spelling? paths (Path.meaning path) = some first)
    (h : s.overwriteFile? path data = some written) :
    written.symbolizer.images.Keeps limit paths questions ∧
      written.symbolizer.images.AnswersFrom (Path.meaning path) p first (m.withBytes data) ∧
      written.symbolizer.live = s.symbolizer.live := by
  simp only [overwriteFile?, Option.bind_eq_bind, Option.bind_eq_some_iff] at h
  obtain ⟨images, himages, h⟩ := h
  obtain rfl := Option.some.inj h
  have hkeeps := hs.overwrite? himages
  exact ⟨hkeeps, hkeeps.answersFrom (OfflineImages.HasRead.overwrite? hs himages hread) hfirst, rfl⟩

/-- A question about an image file. -/
def askFile : Call := .operation (.resolveInFile "a.exe" 0x1014)

/-- The image file, and a process that has loaded an image of which the function has no address. -/
def fileBesideOverflow : World where
  files := Checked.loadedOverflow.files.write "a.exe" Symbolizer.oneFunction
  processes := Checked.loadedOverflow.processes

/-- The image file with another name for its function. -/
def otherName : Bytes :=
  ⟨Symbolizer.oneFunction.data.extract 0 (Symbolizer.oneFunction.size - 22) ++
    ⟨[0x6D, 0x65, 0x61, 0x6E, 0, 0, 0, 0, 0x10, 0, 0, 0, 1, 0, 0x20, 0, 2, 0] ++ [4, 0, 0, 0]⟩⟩

/-- The answer about an image file changes when the file is written over, though it is not opened
again, and there is none after a question about a process has stopped. -/
theorem askFile_changes :
    let fresh := start fileBesideOverflow {} none none
    let s := fresh.after askFile
    (∃ written, s.overwriteFile? "a.exe" otherName = some written ∧
      (s.reply askFile).shownName? = some "main" ∧
      (written.reply askFile).shownName? = some "mean" ∧
      s.symbolizer.offlineCounters.imagesOpened = 1 ∧
      (written.after askFile).symbolizer.offlineCounters.imagesOpened = 1) ∧
    (Checked.replies fresh [askFile, .operation (.attach ⟨1⟩), askFile]).map
        (·.filterMap (·.2.shownName?)) = some ["main", "main"] ∧
      Checked.replies fresh [askFile, .operation (.attach ⟨1⟩),
        .operation (.ask .symbol ⟨1⟩ 0x10010), askFile] = none := by
  intro fresh s
  refine ⟨?_, by decide +kernel, Option.isNone_iff_eq_none.mp (by decide +kernel)⟩
  have hwritten : (s.overwriteFile? "a.exe" otherName).map (fun written =>
      ((written.reply askFile).shownName?,
        (written.after askFile).symbolizer.offlineCounters.imagesOpened)) =
      some (some "mean", 1) := by
    decide +kernel
  obtain ⟨written, hsome, hreply⟩ := Option.map_eq_some_iff.mp hwritten
  obtain ⟨hname, hopened⟩ := Prod.mk.inj hreply
  exact ⟨written, hsome, by decide +kernel, hname, by decide +kernel, hopened⟩

end Session

end Postmortem
