import Mathlib
import Postmortem.Proofs.Image.Copies
import Postmortem.Proofs.Image.SectionOrder
import Postmortem.Proofs.Module.Contents

/-!
# The slots of an export directory

The address table of an export directory has a slot for each function, and the rows of two further
tables give names to slots. The entries that are read are the slots in use, each once, in the order
of their addresses and then of the slots. A slot has a name exactly if a row gives it one.
-/
namespace Postmortem

namespace Bytes

variable {b : Bytes} {offset : Nat}

theorem le_size_of_number? {n v : Nat} (hn : 0 < n) (h : b.number? offset n = some v) :
    offset + n ≤ b.size := by
  induction n generalizing offset v with
  | zero => cases hn
  | succ n ih =>
    simp only [number?, Option.bind_eq_bind, Option.bind_eq_some_iff] at h
    obtain ⟨_, hlow, _, hhigh, _⟩ := h
    obtain ⟨hlt, _⟩ := getElem?_eq_some_iff.mp hlow
    change offset < b.size at hlt
    obtain rfl | hpos := Nat.eq_zero_or_pos n
    · omega
    · have hrest := ih hpos hhigh
      omega

theorem le_size_of_u32? {v : UInt32} (h : b.u32? offset = some v) : offset + 4 ≤ b.size := by
  obtain ⟨_, hv, _⟩ := Option.map_eq_some_iff.mp h
  exact le_size_of_number? (by decide) hv

theorem le_size_of_u16? {v : UInt16} (h : b.u16? offset = some v) : offset + 2 ≤ b.size := by
  obtain ⟨_, hv, _⟩ := Option.map_eq_some_iff.mp h
  exact le_size_of_number? (by decide) hv

/-- Behind a number that is not in the buffer there is none. -/
theorem u32?_eq_none_of_le {later : Nat} (h : b.u32? offset = none) (hle : offset ≤ later) :
    b.u32? later = none := by
  rw [Option.eq_none_iff_forall_ne_some] at h ⊢
  intro v hv
  have hsize := le_size_of_u32? hv
  obtain ⟨w, hw⟩ := b.exists_u32? offset (by omega)
  exact h w hw

theorem u16?_eq_none_of_le {later : Nat} (h : b.u16? offset = none) (hle : offset ≤ later) :
    b.u16? later = none := by
  rw [Option.eq_none_iff_forall_ne_some] at h ⊢
  intro v hv
  have hsize := le_size_of_u16? hv
  obtain ⟨w, hw⟩ := b.exists_u16? offset (by omega)
  exact h w hw

end Bytes

theorem DataDirectory.contains_iff (d : DataDirectory) {rva : UInt32} :
    d.contains rva = true ↔
      d.rva.toNat ≤ rva.toNat ∧ rva.toNat < d.rva.toNat + d.size.toNat := by
  simp only [contains, Bool.and_eq_true, decide_eq_true_eq, UInt32.le_iff_toNat_le,
    UInt32.lt_iff_toNat_lt]
  refine and_congr_right fun hle => ?_
  rw [UInt32.toNat_sub_of_le _ _ (UInt32.le_iff_toNat_le.mpr hle)]
  omega

namespace ExportTable

variable {b : Bytes} {sections : SectionTable} {i k n : Nat}

/-! ## The address table -/

/-- Slot `i` is one of the first `count` of the address table at `functionsAt`, lies in the buffer
and has the address of a function. -/
structure IsSlot (b : Bytes) (functionsAt count i : Nat) (rva : UInt32) : Prop where
  lt_count : i < count
  cell : b.u32? (functionsAt + 4 * i) = some rva
  ne_zero : rva ≠ 0

theorem getElem?_readAddresses (functionsAt i : Nat) (rva : UInt32) :
    (readAddresses b functionsAt n)[i]? = some rva ↔
      i < n ∧ b.u32? (functionsAt + 4 * i) = some rva := by
  induction n generalizing functionsAt i with
  | zero => simp [readAddresses]
  | succ n ih =>
    rw [readAddresses]
    cases hfirst : b.u32? functionsAt with
    | some first =>
      cases i with
      | zero => simp [hfirst]
      | succ i => simp [ih, Nat.mul_succ, Nat.add_assoc, Nat.add_comm 4]
    | none =>
      refine iff_of_false (by simp) ?_
      rintro ⟨_, hcell⟩
      rw [Bytes.u32?_eq_none_of_le hfirst (Nat.le_add_right ..)] at hcell
      cases hcell

/-- The slots in use with their addresses, in the order of the table. -/
def usedSlots (addresses : List UInt32) : List (UInt32 × Nat) :=
  addresses.zipIdx.filter (·.1 ≠ 0)

theorem mem_usedSlots {functionsAt : Nat} (rva : UInt32) (i : Nat) :
    (rva, i) ∈ usedSlots (readAddresses b functionsAt n) ↔ IsSlot b functionsAt n i rva := by
  rw [usedSlots, List.mem_filter, List.mk_mem_zipIdx_iff_getElem?, getElem?_readAddresses]
  simp only [decide_eq_true_eq]
  exact ⟨fun ⟨⟨hlt, hcell⟩, hne⟩ => ⟨hlt, hcell, hne⟩,
    fun ⟨hlt, hcell, hne⟩ => ⟨⟨hlt, hcell⟩, hne⟩⟩

theorem usedSlots_pairwise (addresses : List UInt32) :
    (usedSlots addresses).Pairwise fun p q => p.2 < q.2 := by
  refine List.Pairwise.filter _ (List.pairwise_map.mp ?_)
  rw [List.zipIdx_map_snd]
  exact List.pairwise_lt_range'

/-! ## The tables of names -/

/-- Row `k` is one of the first `count` of the tables of names and has the given cells. It and all
rows before it lie in the buffer. -/
structure IsRow (b : Bytes) (namesAt ordinalsAt count k : Nat) (rva : UInt32) (slot : UInt16) :
    Prop where
  lt_count : k < count
  complete : ∀ j ≤ k, (b.u32? (namesAt + 4 * j)).isSome ∧ (b.u16? (ordinalsAt + 2 * j)).isSome
  name : b.u32? (namesAt + 4 * k) = some rva
  ordinal : b.u16? (ordinalsAt + 2 * k) = some slot

theorem isRow_of_cells {namesAt ordinalsAt count : Nat} {rva : UInt32} {slot : UInt16}
    (hk : k < count) (hname : b.u32? (namesAt + 4 * k) = some rva)
    (hordinal : b.u16? (ordinalsAt + 2 * k) = some slot) :
    IsRow b namesAt ordinalsAt count k rva slot := by
  refine ⟨hk, fun j hj => ?_, hname, hordinal⟩
  rw [Option.isSome_iff_ne_none, Option.isSome_iff_ne_none]
  constructor
  · intro hnone
    rw [Bytes.u32?_eq_none_of_le hnone (by omega)] at hname
    cases hname
  · intro hnone
    rw [Bytes.u16?_eq_none_of_le hnone (by omega)] at hordinal
    cases hordinal

/-- What row `k` says, if it can be read: a slot and its name. -/
def rowAt? (b : Bytes) (sections : SectionTable) (namesAt ordinalsAt k : Nat) :
    Option (Nat × String) := do
  let rva ← b.u32? (namesAt + 4 * k)
  let slot ← b.u16? (ordinalsAt + 2 * k)
  ((sections.offset? rva).bind (b.text? · nameLimit)).map (slot.toNat, ·)

theorem rowAt?_succ (namesAt ordinalsAt k : Nat) :
    rowAt? b sections namesAt ordinalsAt (k + 1) =
      rowAt? b sections (namesAt + 4) (ordinalsAt + 2) k := by
  have hname : namesAt + 4 * (k + 1) = namesAt + 4 + 4 * k := by omega
  have hordinal : ordinalsAt + 2 * (k + 1) = ordinalsAt + 2 + 2 * k := by omega
  rw [rowAt?, rowAt?, hname, hordinal]

/-- A row that one of its cells is missing of ends both tables. -/
theorem rowAt?_eq_none {namesAt ordinalsAt : Nat}
    (h : b.u32? namesAt = none ∨ b.u16? ordinalsAt = none) (k : Nat) :
    rowAt? b sections namesAt ordinalsAt k = none := by
  obtain hname | hordinal := h
  · rw [rowAt?, Bytes.u32?_eq_none_of_le hname (Nat.le_add_right ..)]
    rfl
  · rw [rowAt?, Bytes.u16?_eq_none_of_le hordinal (Nat.le_add_right ..)]
    cases b.u32? (namesAt + 4 * k) <;> rfl

/-- The names that are read are those of the rows, in their order. -/
theorem readNames_eq (namesAt ordinalsAt : Nat) :
    readNames b sections namesAt ordinalsAt n =
      (List.range n).filterMap (rowAt? b sections namesAt ordinalsAt) := by
  induction n generalizing namesAt ordinalsAt with
  | zero => rfl
  | succ n ih =>
    have hend (h : b.u32? namesAt = none ∨ b.u16? ordinalsAt = none) :
        [] = (List.range (n + 1)).filterMap (rowAt? b sections namesAt ordinalsAt) := by
      rw [eq_comm, List.filterMap_eq_nil_iff]
      exact fun k _ => rowAt?_eq_none h k
    rw [readNames]
    cases hrva : b.u32? namesAt with
    | none => exact hend (.inl hrva)
    | some rva =>
      cases hslot : b.u16? ordinalsAt with
      | none => exact hend (.inr hslot)
      | some slot =>
        have hfirst : rowAt? b sections namesAt ordinalsAt 0 =
            ((sections.offset? rva).bind (b.text? · nameLimit)).map (slot.toNat, ·) := by
          simp only [rowAt?, Nat.mul_zero, Nat.add_zero, hrva, hslot, Option.bind_eq_bind,
            Option.bind_some]
        have hrest : (fun k => rowAt? b sections namesAt ordinalsAt (k + 1)) =
            rowAt? b sections (namesAt + 4) (ordinalsAt + 2) :=
          funext fun k => rowAt?_succ namesAt ordinalsAt k
        rw [List.range_succ_eq_map, List.filterMap_cons, List.filterMap_map, hfirst]
        simp only [Function.comp_def, hrest, ih, Option.bind_eq_bind]
        cases (sections.offset? rva).bind (b.text? · nameLimit) <;> rfl

theorem rowAt?_eq_some_iff {namesAt ordinalsAt : Nat} {name : String} :
    rowAt? b sections namesAt ordinalsAt k = some (i, name) ↔
      ∃ rva slot offset, b.u32? (namesAt + 4 * k) = some rva ∧
        b.u16? (ordinalsAt + 2 * k) = some slot ∧ slot.toNat = i ∧
          sections.offset? rva = some offset ∧ b.text? offset nameLimit = some name := by
  simp only [rowAt?, Option.bind_eq_bind, Option.bind_eq_some_iff, Option.map_eq_some_iff]
  constructor
  · rintro ⟨rva, hrva, slot, hslot, text, ⟨offset, hoffset, htext⟩, ⟨⟩⟩
    exact ⟨rva, slot, offset, hrva, hslot, rfl, hoffset, htext⟩
  · rintro ⟨rva, slot, offset, hrva, hslot, rfl, hoffset, htext⟩
    exact ⟨rva, hrva, slot, hslot, name, ⟨offset, hoffset, htext⟩, rfl⟩

/-- The names that are read are those of rows, for the slots that these point at. -/
theorem mem_readNames {namesAt ordinalsAt : Nat} {name : String} :
    (i, name) ∈ readNames b sections namesAt ordinalsAt n ↔
      ∃ k rva slot, IsRow b namesAt ordinalsAt n k rva slot ∧ slot.toNat = i ∧
        (sections.offset? rva).bind (b.text? · nameLimit) = some name := by
  simp only [readNames_eq, List.mem_filterMap, List.mem_range, rowAt?_eq_some_iff]
  constructor
  · rintro ⟨k, hk, rva, slot, offset, hname, hordinal, rfl, hoffset, htext⟩
    exact ⟨k, rva, slot, isRow_of_cells hk hname hordinal, rfl,
      by rw [hoffset, Option.bind_some, htext]⟩
  · rintro ⟨k, rva, slot, hrow, rfl, htext⟩
    obtain ⟨offset, hoffset, htext⟩ := Option.bind_eq_some_iff.mp htext
    exact ⟨k, hrow.lt_count, rva, slot, offset, hrow.name, hrow.ordinal, rfl, hoffset, htext⟩

/-- A row of the tables of names gives slot `i` the name: the tables are stated, the row is read and
points at the slot, and its name can be read. -/
structure NamesSlot (b : Bytes) (sections : SectionTable) (d : Directory) (maxExports i : Nat)
    (name : String) : Prop where
  namesRva_ne : d.namesRva ≠ 0
  ordinalsRva_ne : d.ordinalsRva ≠ 0
  row : ∃ namesAt ordinalsAt k rva slot offset,
    sections.offset? d.namesRva = some namesAt ∧ sections.offset? d.ordinalsRva = some ordinalsAt ∧
      IsRow b namesAt ordinalsAt (min d.nameCount.toNat maxExports) k rva slot ∧ slot.toNat = i ∧
        sections.offset? rva = some offset ∧ b.text? offset nameLimit = some name

variable {d : Directory} {maxExports : Nat} {names : List (Nat × String)} {name : String}

theorem toNat_min_ofNat (count : UInt32) (h : maxExports < UInt32.size) :
    (min count (.ofNat maxExports)).toNat = min count.toNat maxExports := by
  have hmin : min count (.ofNat maxExports) =
      if count ≤ .ofNat maxExports then count else .ofNat maxExports := rfl
  have hbound := UInt32.toNat_ofNat_of_lt' h
  rw [hmin]
  split
  · next hle =>
    rw [UInt32.le_iff_toNat_le] at hle
    omega
  · next hlt =>
    rw [UInt32.le_iff_toNat_le] at hlt
    omega

theorem ReadsNames.mem_iff (h : ReadsNames b sections d (.ofNat maxExports) names)
    (hlimit : maxExports < UInt32.size) :
    (i, name) ∈ names ↔ NamesSlot b sections d maxExports i name := by
  cases h with
  | none hnames =>
    refine iff_of_false List.not_mem_nil fun hslot => hnames ?_
    obtain ⟨_, _, k, _, _, _, _, _, hrow, _⟩ := hslot.row
    have hlt := hrow.lt_count
    refine ⟨?_, hslot.namesRva_ne, hslot.ordinalsRva_ne⟩
    rw [UInt32.lt_iff_toNat_lt, toNat_min_ofNat _ hlimit]
    exact Nat.zero_lt_of_lt hlt
  | @tables namesAt ordinalsAt hnames hnamesAt hordinalsAt =>
    rw [mem_readNames, toNat_min_ofNat _ hlimit]
    constructor
    · rintro ⟨k, rva, slot, hrow, rfl, htext⟩
      obtain ⟨offset, hoffset, htext⟩ := Option.bind_eq_some_iff.mp htext
      exact ⟨hnames.2.1, hnames.2.2, namesAt, ordinalsAt, k, rva, slot, offset, hnamesAt,
        hordinalsAt, hrow, rfl, hoffset, htext⟩
    · rintro ⟨-, -, _, _, k, rva, slot, offset, hnamesAt', hordinalsAt', hrow, rfl, hoffset, htext⟩
      obtain rfl := Option.some.inj (hnamesAt.symm.trans hnamesAt')
      obtain rfl := Option.some.inj (hordinalsAt.symm.trans hordinalsAt')
      exact ⟨k, rva, slot, hrow, rfl, by rw [hoffset, Option.bind_some, htext]⟩

/-! ## Names by slot -/

/-- Of the names that are given to one slot, the last one is kept. -/
theorem getElem?_ofList (names : List (Nat × String)) (i : Nat) :
    (Std.HashMap.ofList names)[i]? =
      names.reverse.findSome? fun (slot, name) => if slot == i then some name else none := by
  rw [Std.HashMap.ofList_eq_insertMany_empty, Std.HashMap.getElem?_insertMany_list,
    Std.HashMap.getElem?_empty, Option.or_none, List.findSomeRev?_eq_findSome?_reverse]

theorem mem_of_getElem?_ofList (h : (Std.HashMap.ofList names)[i]? = some name) :
    (i, name) ∈ names := by
  rw [getElem?_ofList] at h
  obtain ⟨⟨slot, text⟩, hmem, hslot⟩ := List.exists_of_findSome?_eq_some h
  obtain ⟨hsame, rfl⟩ : slot = i ∧ text = name := by simpa using hslot
  rw [← hsame]
  exact List.mem_reverse.mp hmem

theorem isSome_getElem?_ofList (names : List (Nat × String)) (i : Nat) :
    (Std.HashMap.ofList names)[i]?.isSome ↔ ∃ name, (i, name) ∈ names := by
  rw [getElem?_ofList, List.findSome?_isSome_iff]
  simp

/-! ## The entries -/

/-- The entry of slot `i`, when these names were read. -/
def entryOf (b : Bytes) (sections : SectionTable) (directory : DataDirectory)
    (ordinalBase : UInt32) (names : Std.HashMap Nat String) (slot : UInt32 × Nat) :
    ExportEntry where
  name := names[slot.2]?
  ordinal := ordinalBase + UInt32.ofNat slot.2
  rva := slot.1
  forwarder := forwarder? b sections directory slot.1

variable {directory : DataDirectory} {ordinalBase : UInt32} {addresses : List UInt32}

theorem entriesOf_eq (names : Std.HashMap Nat String) :
    entriesOf b sections directory ordinalBase names addresses =
      (usedSlots addresses).map (entryOf b sections directory ordinalBase names) := by
  rw [usedSlots, ← List.filterMap_eq_map, List.filterMap_filter, entriesOf]
  refine List.filterMap_congr fun slot _ => ?_
  by_cases hzero : slot.1 = 0 <;> simp [hzero, entryOf]

/-- The slots in use, in the order of their addresses and then of the table. -/
def orderedSlots (addresses : List UInt32) : List (UInt32 × Nat) :=
  (usedSlots addresses).mergeSort fun p q => p.1 ≤ q.1

theorem mergeSort_entriesOf (names : Std.HashMap Nat String) :
    (entriesOf b sections directory ordinalBase names addresses).mergeSort
        (fun e f => e.rva ≤ f.rva) =
      (orderedSlots addresses).map (entryOf b sections directory ordinalBase names) := by
  rw [entriesOf_eq, orderedSlots, List.map_mergeSort fun _ _ _ _ => ?_]
  rfl

theorem mem_orderedSlots {functionsAt : Nat} (rva : UInt32) (i : Nat) :
    (rva, i) ∈ orderedSlots (readAddresses b functionsAt n) ↔ IsSlot b functionsAt n i rva := by
  rw [orderedSlots, (List.mergeSort_perm _ _).mem_iff, mem_usedSlots]

theorem orderedSlots_pairwise (addresses : List UInt32) :
    (orderedSlots addresses).Pairwise fun p q => p.1 < q.1 ∨ p.1 = q.1 ∧ p.2 < q.2 := by
  refine (pairwise_mergeSort_of_pairwise ?_ ?_ (usedSlots_pairwise addresses)).imp ?_
  · intro p q r hpq hqr
    simp only [decide_eq_true_eq] at hpq hqr ⊢
    exact UInt32.le_trans hpq hqr
  · intro p q
    simpa using UInt32.le_total p.1 q.1
  · rintro p q ⟨hle, hstable⟩
    simp only [decide_eq_true_eq, UInt32.le_iff_toNat_le] at hle hstable
    rw [UInt32.lt_iff_toNat_lt, ← UInt32.toNat_inj]
    omega

/-- What the entry of a slot says: the address, the number counted from the base, a name exactly if
some row gives one, and then that of such a row. It stands for another function only if the address
is one of the directory. -/
structure DescribesSlot (b : Bytes) (sections : SectionTable) (directory : DataDirectory)
    (d : Directory) (maxExports : Nat) (slot : UInt32 × Nat) (e : ExportEntry) : Prop where
  rva : e.rva = slot.1
  ordinal : e.ordinal.toNat = (d.ordinalBase.toNat + slot.2) % UInt32.size
  isNamed : e.name.isSome ↔ ∃ name, NamesSlot b sections d maxExports slot.2 name
  name : ∀ name ∈ e.name, NamesSlot b sections d maxExports slot.2 name
  forwarder : e.forwarder.isSome →
    directory.rva.toNat ≤ slot.1.toNat ∧
      slot.1.toNat < directory.rva.toNat + directory.size.toNat

theorem forwarder?_eq_none {rva : UInt32} (h : directory.contains rva = false) :
    forwarder? b sections directory rva = none := by
  rw [forwarder?, h]
  rfl

theorem contains_of_forwarder? {rva : UInt32}
    (h : (forwarder? b sections directory rva).isSome) :
    directory.rva.toNat ≤ rva.toNat ∧
      rva.toNat < directory.rva.toNat + directory.size.toNat := by
  obtain ⟨_, htext⟩ := Option.isSome_iff_exists.mp h
  obtain ⟨_, hguard, _⟩ := Option.bind_eq_some_iff.mp htext
  have hcontains : directory.contains rva = true := by simpa [guard] using hguard
  exact directory.contains_iff.mp hcontains

theorem describesSlot_entryOf (hnames : ReadsNames b sections d (.ofNat maxExports) names)
    (hlimit : maxExports < UInt32.size) (slot : UInt32 × Nat) :
    DescribesSlot b sections directory d maxExports slot
      (entryOf b sections directory d.ordinalBase (.ofList names) slot) where
  rva := rfl
  ordinal := by simp [entryOf, UInt32.toNat_add]
  isNamed := by
    simp only [entryOf, isSome_getElem?_ofList, hnames.mem_iff hlimit]
  name name h := (hnames.mem_iff hlimit).mp (mem_of_getElem?_ofList h)
  forwarder := contains_of_forwarder?

/-- The place of an address, which has to be in the buffer. -/
def place (sections : SectionTable) (rva : UInt32) : Except ImageError Nat :=
  match sections.offset? rva with
  | some offset => .ok offset
  | none => .error (.unmappedRva rva)

theorem offset?_of_place {rva : UInt32} {offset : Nat} (h : place sections rva = .ok offset) :
    sections.offset? rva = some offset := by
  unfold place at h
  split at h
  · next found hfound => rw [hfound, Except.ok.inj h]
  · cases h

/-- What was read when there is a directory: its fields, the addresses and the names. -/
theorem exists_of_read {t : ExportTable} (hpresent : directory.isPresent = true)
    (h : read b sections directory maxExports = .ok t) :
    ∃ offset d functionsAt names, sections.offset? directory.rva = some offset ∧
      Directory.read b offset = .ok d ∧ sections.offset? d.functionsRva = some functionsAt ∧
        ReadsNames b sections d (.ofNat maxExports) names ∧ t.ordinalBase = d.ordinalBase ∧
          t.entries.toList = (orderedSlots (readAddresses b functionsAt
            (min d.functionCount (.ofNat maxExports)).toNat)).map
              (entryOf b sections directory d.ordinalBase (.ofList names)) := by
  unfold read at h
  rw [if_neg (by simp [hpresent])] at h
  obtain ⟨offset, hoffset, h⟩ := ok_of_bind h
  obtain ⟨d, hd, h⟩ := ok_of_bind h
  dsimp only at h
  split at h
  case' isTrue => obtain ⟨_, _, h⟩ := ok_of_bind h
  case' isFalse =>
    obtain ⟨_, _, h⟩ := ok_of_bind h
    obtain ⟨_, _, h⟩ := ok_of_bind h
  -- Whether the library has a name or not, the tables are read alike.
  all_goals
    obtain ⟨functionsAt, hfunctions, h⟩ := ok_of_bind h
    refine ⟨offset, d, functionsAt, ?_⟩
    split at h
    · next hnames =>
      obtain ⟨namesAt, hnamesAt, h⟩ := ok_of_bind h
      obtain ⟨ordinalsAt, hordinalsAt, h⟩ := ok_of_bind h
      obtain ⟨_, hread, h⟩ := ok_of_bind h
      obtain rfl := Except.ok.inj hread
      obtain rfl := Except.ok.inj h
      refine ⟨_, offset?_of_place hoffset, hd, offset?_of_place hfunctions,
        .tables hnames (offset?_of_place hnamesAt) (offset?_of_place hordinalsAt), rfl, ?_⟩
      rw [List.toList_toArray, mergeSort_entriesOf]
    · next hnames =>
      obtain ⟨_, hread, h⟩ := ok_of_bind h
      obtain rfl := Except.ok.inj hread
      obtain rfl := Except.ok.inj h
      refine ⟨_, offset?_of_place hoffset, hd, offset?_of_place hfunctions, .none hnames, rfl,
        ?_⟩
      rw [List.toList_toArray, mergeSort_entriesOf]

/-- The entries that are read are the slots of the address table that are in use, each of them once,
in the order of their addresses and then of the table. -/
theorem read_entries {t : ExportTable} (hlimit : maxExports < UInt32.size)
    (hpresent : directory.isPresent = true) (h : read b sections directory maxExports = .ok t) :
    ∃ offset d functionsAt, sections.offset? directory.rva = some offset ∧
      Directory.read b offset = .ok d ∧ sections.offset? d.functionsRva = some functionsAt ∧
        ∃ slots : List (UInt32 × Nat),
          (∀ rva i, (rva, i) ∈ slots ↔
            IsSlot b functionsAt (min d.functionCount.toNat maxExports) i rva) ∧
          slots.Pairwise (fun p q => p.1 < q.1 ∨ p.1 = q.1 ∧ p.2 < q.2) ∧
          List.Forall₂ (DescribesSlot b sections directory d maxExports) slots
            t.entries.toList := by
  obtain ⟨offset, d, functionsAt, names, hoffset, hd, hfunctions, hnames, -, hentries⟩ :=
    exists_of_read hpresent h
  rw [toNat_min_ofNat _ hlimit] at hentries
  refine ⟨offset, d, functionsAt, hoffset, hd, hfunctions, _, mem_orderedSlots,
    orderedSlots_pairwise _, ?_⟩
  rw [hentries, List.forall₂_map_right_iff]
  exact List.forall₂_same.mpr fun slot _ => describesSlot_entryOf hnames hlimit slot

/-- A directory whose address table is stated longer than the buffer. Of its four slots one is not
in use, one stands for another function, and two have one address. Of the three rows of names two
are for the last slot, and the third one's name is outside of the buffer. -/
def fourSlots : Bytes :=
  ⟨⟨[0, 0, 0, 0, 0, 0xFFFFFFFF, 9, 3, 67, 44, 56].flatMap (Bytes.littleEndian 4) ++
    [62, 65, 1000].flatMap (Bytes.littleEndian 4) ++ [3, 3, 0].flatMap (Bytes.littleEndian 2) ++
    (["go", "f"].flatMap fun s => Text.bytes s ++ [0]) ++
    [0x2000, 0, 62, 0x2000].flatMap (Bytes.littleEndian 4)⟩⟩

def fourSlotsDirectory : Directory := ⟨0, 0xFFFFFFFF, 9, 3, 67, 44, 56⟩

/-- The last slot has an entry with a name, whose ordinal has run over. -/
theorem fourSlots_entries :
    ∃ t, read fourSlots ⟨#[], .memory⟩ ⟨4, 80⟩ 16 = .ok t ∧
      ∃ e ∈ t.entries.toList, e.rva = 0x2000 ∧ e.ordinal = 2 ∧ e.name.isSome := by
  have hd : Directory.read fourSlots 4 = .ok fourSlotsDirectory := by cbv
  obtain ⟨t, ht⟩ : ∃ t, read fourSlots ⟨#[], .memory⟩ ⟨4, 80⟩ 16 = .ok t :=
    ⟨_, read_eq_ok (by decide) rfl hd (.none rfl) rfl (.tables (by decide) rfl rfl)⟩
  obtain ⟨offset, d, functionsAt, hoffset, hd', hfunctions, slots, hslots, -, hentries⟩ :=
    read_entries (by decide) (by decide) ht
  obtain rfl : 4 = offset := Option.some.inj hoffset
  obtain rfl : fourSlotsDirectory = d := Except.ok.inj (hd.symm.trans hd')
  obtain rfl : 67 = functionsAt := Option.some.inj hfunctions
  have hslot : IsSlot fourSlots 67 9 3 0x2000 := ⟨by decide, by decide, by decide⟩
  have hname : NamesSlot fourSlots ⟨#[], .memory⟩ fourSlotsDirectory 16 3 "go" :=
    ⟨by decide, by decide, 44, 56, 0, 62, 3, 62, rfl, rfl,
      isRow_of_cells (by decide) (by decide) (by decide), rfl, rfl, by cbv⟩
  obtain ⟨k, hk, hat⟩ := List.mem_iff_getElem.mp ((hslots _ _).mpr hslot)
  have hk' : k < t.entries.toList.length := hentries.length_eq ▸ hk
  have hdescribes := hentries.get hk hk'
  simp only [List.get_eq_getElem, hat] at hdescribes
  refine ⟨t, ht, _, List.getElem_mem hk', hdescribes.rva, ?_, hdescribes.isNamed.mpr ⟨_, hname⟩⟩
  exact UInt32.toNat_inj.mp hdescribes.ordinal

deriving instance DecidableEq for Directory

/-- An image of 32 bits for the base 0x400000. Its only section is at 0x100 and has the given bytes,
of which the first `size` are the export directory. The records of a symbol table come behind. -/
def exportingImage (size : Nat) (content : List UInt8) (records : List (List UInt8)) : Bytes :=
  ⟨⟨[0x4D, 0x5A] ++ List.replicate 58 0 ++ Bytes.littleEndian 4 0x40 ++ Headers.signature ++
    [0x4C, 0x01, 1, 0] ++
    [0, 232 + content.length, records.length, 104].flatMap (Bytes.littleEndian 4) ++
    [0x0B, 0x01] ++ List.replicate 26 0 ++ Bytes.littleEndian 4 0x400000 ++ List.replicate 60 0 ++
    [1, 0x100, size].flatMap (Bytes.littleEndian 4) ++ Text.field ".edata" ++
    [content.length, 0x100, content.length, 232, 0, 0, 0, 0].flatMap (Bytes.littleEndian 4) ++
    content ++ records.flatten ++ Bytes.littleEndian 4 4⟩⟩

/-- Such an image with one export `go` at `rva`. The directory goes on with a text. -/
def oneExport (rva : Nat) (text : List UInt8) (records : List (List UInt8)) : Bytes :=
  exportingImage (53 + text.length)
    ([0, 0, 0, 0, 1, 1, 1, 0x128, 0x12C, 0x130, rva, 0x132].flatMap (Bytes.littleEndian 4) ++
      [0, 0] ++ Text.bytes "go" ++ [0] ++ text) records

end ExportTable

end Postmortem
