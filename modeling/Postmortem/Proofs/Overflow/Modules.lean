import Postmortem.Checked.Module
import Postmortem.Proofs.Overflow.Headers

/-!
# Modules in checked arithmetic

A module that has a file is read without an overflow. One that is copied out of its process has a
page for every 4096 bytes of the size that its headers state, and the pages of a module near the end
of the address space need not have addresses. This is all that can stop.
-/
namespace Postmortem

/-- Whether every page of an image of the given size, loaded at `base`, has an address. -/
def PagesFit (base : UInt64) (size : Nat) : Prop :=
  base.toNat + (size - 1) / ModuleImage.pageSize * ModuleImage.pageSize < UInt64.size

instance (base : UInt64) (size : Nat) : Decidable (PagesFit base size) :=
  inferInstanceAs (Decidable (_ < _))

/-- The pages have addresses if the last one has. -/
theorem pagesFit_iff (base : UInt64) (size : Nat) :
    PagesFit base size ↔
      ∀ i ∈ List.range ((size + ModuleImage.pageSize - 1) / ModuleImage.pageSize),
        base.toNat + i * ModuleImage.pageSize < UInt64.size := by
  simp only [PagesFit, ModuleImage.pageSize, List.mem_range]
  constructor
  · intro hfits i hi
    have hle : i ≤ (size - 1) / 0x1000 := by omega
    exact Nat.lt_of_le_of_lt (Nat.add_le_add_left (Nat.mul_le_mul_right 0x1000 hle) _) hfits
  · intro hall
    by_cases hsize : size = 0
    · rw [hsize]
      exact base.toNat_lt
    · exact hall _ (by omega)

namespace ModuleImage

/-- The size of the image that is copied out of a process: the one in its headers, if the first page
has headers in it and the image is not too large. -/
def copiedSize? (processes : ProcessMap) (process : ProcessId) (base : UInt64) (limit : Nat) :
    Option Nat := do
  let first ← processes.readMemory? process base pageSize
  let headers ← (Image.ofMemoryBytes first).toOption
  if limit < headers.sizeOfImage.toNat then none else some headers.sizeOfImage.toNat

/-- Whether the pages that are copied of the image at `base` have addresses. -/
def CopyFits (processes : ProcessMap) (process : ProcessId) (base : UInt64) (limit : Nat) : Prop :=
  ∀ size ∈ copiedSize? processes process base limit, PagesFit base size

instance (processes : ProcessMap) (process : ProcessId) (base : UInt64) (limit : Nat) :
    Decidable (CopyFits processes process base limit) :=
  inferInstanceAs (Decidable (∀ size ∈ copiedSize? processes process base limit, _))

section Copied

variable {processes : ProcessMap} {process : ProcessId} {base : UInt64} {limit : Nat}

theorem copyFits_of_none (h : copiedSize? processes process base limit = none) :
    CopyFits processes process base limit := by
  rw [CopyFits, h]
  rintro _ ⟨⟩

theorem copyFits_iff {first : Bytes} {headers : Image}
    (hread : processes.readMemory? process base pageSize = some first)
    (hfirst : Image.ofMemoryBytes first = .ok headers) :
    CopyFits processes process base limit ↔
      limit < headers.sizeOfImage.toNat ∨ PagesFit base headers.sizeOfImage.toNat := by
  have hsize : copiedSize? processes process base limit =
      if limit < headers.sizeOfImage.toNat then none else some headers.sizeOfImage.toNat := by
    rw [copiedSize?, hread, Option.bind_eq_bind, Option.bind_some, hfirst]
    rfl
  by_cases hlimit : limit < headers.sizeOfImage.toNat
  · rw [if_pos hlimit] at hsize
    exact iff_of_true (copyFits_of_none hsize) (.inl hlimit)
  · rw [if_neg hlimit] at hsize
    rw [CopyFits, hsize, or_iff_right hlimit]
    exact ⟨fun hall => hall _ rfl, fun hfits _ hmem => Option.some.inj hmem ▸ hfits⟩

end Copied

/-- Whether a module is read without an overflow: it has a file, or its pages have addresses. -/
def ReadFits (files : Files) (processes : ProcessMap) (limit : Nat) (process : ProcessId)
    (base : UInt64) (path : Option String) : Prop :=
  (path.bind fun path => (Image.openFile files path limit).toOption).isSome = true ∨
    CopyFits processes process base limit

instance (files : Files) (processes : ProcessMap) (limit : Nat) (process : ProcessId)
    (base : UInt64) (path : Option String) :
    Decidable (ReadFits files processes limit process base path) :=
  inferInstanceAs (Decidable (_ ∨ _))

end ModuleImage

namespace Checked

/-- Steps that stop on some members of a list. -/
theorem foldlM_eq_ite {α β : Type} {f : β → α → Option β} {g : β → α → β} {p : α → Prop}
    [DecidablePred p] {l : List α}
    (h : ∀ b, ∀ a ∈ l, f b a = if p a then some (g b a) else none) (b : β) :
    l.foldlM f b = if ∀ a ∈ l, p a then some (l.foldl g b) else none := by
  induction l generalizing b with
  | nil => simp
  | cons a rest ih =>
    rw [List.foldlM_cons, h b a List.mem_cons_self]
    by_cases ha : p a
    · rw [if_pos ha]
      simp only [List.forall_mem_cons, ha, true_and, List.foldl_cons]
      exact ih (fun b a ha => h b a (List.mem_cons_of_mem _ ha)) _
    · rw [if_neg ha, if_neg fun hall => ha (hall a List.mem_cons_self)]
      rfl

theorem copyPages_eq (processes : ProcessMap) (process : ProcessId) (base : UInt64) {size : Nat}
    (hsize : size < 2 ^ 32) :
    copyPages processes process base size =
      if PagesFit base size then some (ModuleImage.copyPages processes process base size)
      else none := by
  simp only [pagesFit_iff]
  refine foldlM_eq_ite (fun copy i hi => ?_) _
  have hplace : i * ModuleImage.pageSize < 2 ^ 40 := by
    rw [List.mem_range] at hi
    simp only [ModuleImage.pageSize] at hi ⊢
    omega
  have hnat : (UInt64.ofNat (i * ModuleImage.pageSize)).toNat = i * ModuleImage.pageSize :=
    UInt64.toNat_ofNat_of_lt (Nat.lt_trans hplace (by decide))
  rw [offset_of_lt hplace, Option.bind_eq_bind, Option.bind_some, add64, hnat]
  by_cases hfits : base.toNat + i * ModuleImage.pageSize < UInt64.size
  · rw [if_pos hfits, if_pos hfits]
    dsimp only [Option.bind_eq_bind, Option.bind_some]
    cases processes.readMemory? process (base + .ofNat (i * ModuleImage.pageSize))
      ModuleImage.pageSize <;> rfl
  · rw [if_neg hfits, if_neg hfits]
    rfl

theorem openFile_agrees (files : Files) (path : String) (limit : Nat) :
    Agrees (openFile files path limit) (Image.openFile files path limit) := by
  unfold openFile
  cases hread : files.read path limit with
  | error e => exact .lift _
  | ok data =>
    rw [Image.openFile, hread]
    exact parse_agrees data {} (some path)

theorem memoryImage_eq (data : Bytes) :
    memoryImage data = some ((Image.ofMemoryBytes data).mapError .ofImageError) := by
  have hrun : (parse data { layout := .memory } none).run = some (Image.ofMemoryBytes data) :=
    parse_agrees ..
  rw [memoryImage, hrun]
  rfl

section Memory

variable (processes : ProcessMap) (process : ProcessId) (base : UInt64) (limit : Nat)

theorem ofMemory_of_first {first : Bytes}
    (h : processes.readMemory? process base ModuleImage.pageSize = some first) :
    ofMemory processes process base limit =
      match Image.ofMemoryBytes first with
      | .error e => some (.error (.ofImageError e))
      | .ok headers =>
        if limit < headers.sizeOfImage.toNat
        then some (.error (.ofAccessError (.tooLarge limit headers.sizeOfImage.toNat)))
        else (copyPages processes process base headers.sizeOfImage.toNat).bind memoryImage := by
  rw [ofMemory, h]
  simp only [Option.bind_eq_bind, memoryImage_eq first, Option.bind_some]
  cases Image.ofMemoryBytes first <;> rfl

/-- An image is copied out of a process unless one of its pages has no address. -/
theorem ofMemory_eq :
    ofMemory processes process base limit =
      if ModuleImage.CopyFits processes process base limit
      then some (ModuleImage.ofMemory processes process base limit) else none := by
  cases hread : processes.readMemory? process base ModuleImage.pageSize with
  | none =>
    have hfits : ModuleImage.CopyFits processes process base limit :=
      ModuleImage.copyFits_of_none (by rw [ModuleImage.copiedSize?, hread]; rfl)
    rw [if_pos hfits, ofMemory, ModuleImage.ofMemory, hread]
    rfl
  | some first =>
    rw [ofMemory_of_first processes process base limit hread]
    cases hfirst : Image.ofMemoryBytes first with
    | error e =>
      have hfits : ModuleImage.CopyFits processes process base limit := by
        refine ModuleImage.copyFits_of_none ?_
        rw [ModuleImage.copiedSize?, hread, Option.bind_eq_bind, Option.bind_some, hfirst]
        rfl
      rw [if_pos hfits, ModuleImage.ofMemory, hread]
      simp only [hfirst]
      rfl
    | ok headers =>
      have hiff : ModuleImage.CopyFits processes process base limit ↔ _ :=
        ModuleImage.copyFits_iff hread hfirst
      rw [ModuleImage.ofMemory, hread]
      simp only [hfirst]
      by_cases hlimit : limit < headers.sizeOfImage.toNat
      · rw [if_pos hlimit, if_pos (hiff.mpr (.inl hlimit))]
        exact congrArg some (if_pos hlimit).symm
      · rw [or_iff_right hlimit] at hiff
        rw [if_neg hlimit, copyPages_eq processes process base headers.sizeOfImage.toNat_lt]
        by_cases hfits : PagesFit base headers.sizeOfImage.toNat
        · rw [if_pos hfits, if_pos (hiff.mpr hfits), Option.bind_some, memoryImage_eq]
          exact congrArg some (if_neg hlimit).symm
        · rw [if_neg hfits, if_neg fun h => hfits (hiff.mp h)]
          rfl

end Memory

variable (files : Files) (processes : ProcessMap) (limit : Nat) (process : ProcessId)
  (base : UInt64) (path : Option String)

theorem fileImage_eq :
    fileImage files limit path =
      some (path.bind fun path => (Image.openFile files path limit).toOption) := by
  cases path with
  | none => rfl
  | some path =>
    have hrun : (openFile files path limit).run = some (Image.openFile files path limit) :=
      openFile_agrees files path limit
    rw [fileImage, hrun]
    rfl

/-- A module is read unless it is copied out of its process and one of its pages has no address. -/
theorem build_eq :
    build files processes limit process base path =
      if ModuleImage.ReadFits files processes limit process base path
      then some (.build files processes limit process base path) else none := by
  rw [build, moduleImage, fileImage_eq, ofMemory_eq, ModuleImage.build, ModuleImage.find?]
  cases hfile : path.bind fun path => (Image.openFile files path limit).toOption with
  | some image =>
    have hfits : ModuleImage.ReadFits files processes limit process base path :=
      .inl (by rw [hfile]; rfl)
    rw [if_pos hfits]
    rfl
  | none =>
    have hiff : ModuleImage.ReadFits files processes limit process base path ↔
        ModuleImage.CopyFits processes process base limit := by
      rw [ModuleImage.ReadFits, hfile]
      exact or_iff_right Bool.false_ne_true
    by_cases hfits : ModuleImage.CopyFits processes process base limit
    · rw [if_pos hfits, if_pos (hiff.mpr hfits)]
      rfl
    · rw [if_neg hfits, if_neg fun h => hfits (hiff.mp h)]
      rfl

end Checked

end Postmortem
