import Postmortem.Proofs.Image.ExportSlots
import Postmortem.Proofs.Image.LoadedExports

/-!
# Finding exports by name

A slot of the address table has one name, that of the last row which names it. So a name that no
other row has is found, and leads to the address of its slot, unless a later row gives the slot
another name. Then it is lost.
-/
namespace Postmortem

namespace ExportTable

variable {b : Bytes} {sections : SectionTable} {i k n : Nat} {name : String}

/-! ## Rows of the tables of names -/

/-- Row `k`, which is one of those that are read, points at slot `i` and has a name that can be
read. Limits are numbers of 32 bits. -/
structure RowNames (b : Bytes) (sections : SectionTable) (d : Directory) (maxExports k i : Nat)
    (name : String) : Prop where
  lt_count : k < (min d.nameCount (.ofNat maxExports)).toNat
  namesRva_ne : d.namesRva ≠ 0
  ordinalsRva_ne : d.ordinalsRva ≠ 0
  cells : ∃ namesAt ordinalsAt rva slot offset,
    sections.offset? d.namesRva = some namesAt ∧ sections.offset? d.ordinalsRva = some ordinalsAt ∧
      b.u32? (namesAt + 4 * k) = some rva ∧ b.u16? (ordinalsAt + 2 * k) = some slot ∧
        slot.toNat = i ∧ sections.offset? rva = some offset ∧ b.text? offset nameLimit = some name

variable {d : Directory} {maxExports : Nat} {names : List (Nat × String)}

theorem rowNames_iff {namesAt ordinalsAt : Nat} (hnames : HasNames d (.ofNat maxExports))
    (hnamesAt : sections.offset? d.namesRva = some namesAt)
    (hordinalsAt : sections.offset? d.ordinalsRva = some ordinalsAt) :
    RowNames b sections d maxExports k i name ↔ k < (min d.nameCount (.ofNat maxExports)).toNat ∧
      rowAt? b sections namesAt ordinalsAt k = some (i, name) := by
  rw [rowAt?_eq_some_iff]
  constructor
  · rintro ⟨hk, -, -, _, _, rva, slot, offset, hnamesAt', hordinalsAt', hcells⟩
    obtain rfl := Option.some.inj (hnamesAt.symm.trans hnamesAt')
    obtain rfl := Option.some.inj (hordinalsAt.symm.trans hordinalsAt')
    exact ⟨hk, rva, slot, offset, hcells⟩
  · rintro ⟨hk, rva, slot, offset, hcells⟩
    exact ⟨hk, hnames.2.1, hnames.2.2, namesAt, ordinalsAt, rva, slot, offset, hnamesAt,
      hordinalsAt, hcells⟩

/-- The names that are read, row by row. -/
theorem ReadsNames.exists_rows (h : ReadsNames b sections d (.ofNat maxExports) names) :
    ∃ rows : Nat → Option (Nat × String),
      names = (List.range (min d.nameCount (.ofNat maxExports)).toNat).filterMap rows ∧
        ∀ k i name, RowNames b sections d maxExports k i name ↔
          k < (min d.nameCount (.ofNat maxExports)).toNat ∧ rows k = some (i, name) := by
  cases h with
  | none hnames =>
    refine ⟨fun _ => Option.none, by simp, fun k i name => ?_⟩
    refine iff_of_false (fun hrow => hnames ?_) (by simp)
    refine ⟨?_, hrow.namesRva_ne, hrow.ordinalsRva_ne⟩
    exact UInt32.lt_iff_toNat_lt.mpr (Nat.zero_lt_of_lt hrow.lt_count)
  | @tables namesAt ordinalsAt hnames hnamesAt hordinalsAt =>
    exact ⟨_, readNames_eq namesAt ordinalsAt, fun k i name =>
      rowNames_iff hnames hnamesAt hordinalsAt⟩

/-- A row points at one slot. -/
theorem RowNames.slot_unique {i' : Nat} {name' : String}
    (h : RowNames b sections d maxExports k i name)
    (h' : RowNames b sections d maxExports k i' name') : i = i' := by
  obtain ⟨_, _, _, slot, _, _, hat, _, hslot, rfl, _⟩ := h.cells
  obtain ⟨_, _, _, slot', _, _, hat', _, hslot', rfl, _⟩ := h'.cells
  obtain rfl := Option.some.inj (hat.symm.trans hat')
  rw [Option.some.inj (hslot.symm.trans hslot')]

/-! ## The name of a slot -/

/-- Of the rows that name a slot, the last one counts. -/
theorem getElem?_ofList_rows (rows : Nat → Option (Nat × String)) :
    (Std.HashMap.ofList ((List.range n).filterMap rows))[i]? = some name ↔
      ∃ k < n, rows k = some (i, name) ∧
        ∀ j < n, ∀ other, rows j = some (i, other) → j ≤ k := by
  induction n with
  | zero => simp
  | succ n ih =>
    rw [getElem?_ofList] at ih ⊢
    have hnot (h : ∀ other, rows n ≠ some (i, other)) :
        (∃ k < n, rows k = some (i, name) ∧ ∀ j < n, ∀ other, rows j = some (i, other) → j ≤ k) ↔
          ∃ k < n + 1, rows k = some (i, name) ∧
            ∀ j < n + 1, ∀ other, rows j = some (i, other) → j ≤ k := by
      constructor
      · rintro ⟨k, hk, hrow, hlast⟩
        refine ⟨k, Nat.lt_succ_of_lt hk, hrow, fun j hj other hother => ?_⟩
        obtain hlt | rfl := Nat.lt_succ_iff_lt_or_eq.mp hj
        · exact hlast j hlt other hother
        · exact absurd hother (h other)
      · rintro ⟨k, hk, hrow, hlast⟩
        obtain hlt | rfl := Nat.lt_succ_iff_lt_or_eq.mp hk
        · exact ⟨k, hlt, hrow, fun j hj => hlast j (Nat.lt_succ_of_lt hj)⟩
        · exact absurd hrow (h name)
    rw [List.range_succ, List.filterMap_append, List.reverse_append, List.findSome?_append]
    cases hrow : rows n with
    | none =>
      rw [← hnot (by simp [hrow])]
      simpa [hrow] using ih
    | some row =>
      obtain ⟨slot, text⟩ := row
      by_cases hslot : slot = i
      · subst hslot
        constructor
        · intro h
          obtain rfl : text = name := by simpa [hrow] using h
          exact ⟨n, Nat.lt_succ_self n, hrow, fun j hj _ _ => Nat.le_of_lt_succ hj⟩
        · rintro ⟨k, hk, hname, hlast⟩
          obtain rfl := Nat.le_antisymm (Nat.le_of_lt_succ hk)
            (hlast n (Nat.lt_succ_self n) text hrow)
          simpa [hrow] using hname
      · rw [← hnot (by simp [hrow, hslot])]
        simpa [hrow, hslot] using ih

/-- Row `k` names slot `i`, and no later row does. -/
structure NamesLast (b : Bytes) (sections : SectionTable) (d : Directory) (maxExports k i : Nat)
    (name : String) : Prop where
  row : RowNames b sections d maxExports k i name
  le : ∀ j other, RowNames b sections d maxExports j i other → j ≤ k

/-- A slot has the name of the last row that names it. -/
theorem ReadsNames.getElem?_eq_some_iff (h : ReadsNames b sections d (.ofNat maxExports) names) :
    (Std.HashMap.ofList names)[i]? = some name ↔
      ∃ k, NamesLast b sections d maxExports k i name := by
  obtain ⟨rows, rfl, hrows⟩ := h.exists_rows
  rw [getElem?_ofList_rows]
  constructor
  · rintro ⟨k, hk, hrow, hlast⟩
    refine ⟨k, (hrows k i name).mpr ⟨hk, hrow⟩, fun j other hother => ?_⟩
    obtain ⟨hj, hrow'⟩ := (hrows j i other).mp hother
    exact hlast j hj other hrow'
  · rintro ⟨k, hrow, hlast⟩
    obtain ⟨hk, hrow⟩ := (hrows k i name).mp hrow
    exact ⟨k, hk, hrow, fun j hj other hother => hlast j other ((hrows j i other).mpr ⟨hj, hother⟩)⟩

/-! ## The table -/

variable {directory : DataDirectory} {t : ExportTable}

/-- What is found by a name is a slot that the name is the last one of, and each such slot makes
the name be found. -/
theorem exists_lastNames_of_read (hpresent : directory.isPresent = true)
    (h : read b sections directory maxExports = .ok t) :
    ∃ offset d functionsAt, sections.offset? directory.rva = some offset ∧
      Directory.read b offset = .ok d ∧ sections.offset? d.functionsRva = some functionsAt ∧
        ∀ name,
          (∀ e, t.named? name = some e → ∃ k i, NamesLast b sections d maxExports k i name ∧
            IsSlot b functionsAt (min d.functionCount (.ofNat maxExports)).toNat i e.rva) ∧
          ∀ k i rva, NamesLast b sections d maxExports k i name →
            IsSlot b functionsAt (min d.functionCount (.ofNat maxExports)).toNat i rva →
              t.named? name ≠ none := by
  obtain ⟨offset, d, functionsAt, names, hoffset, hd, hfunctions, hnames, -, hentries⟩ :=
    exists_of_read hpresent h
  refine ⟨offset, d, functionsAt, hoffset, hd, hfunctions, fun name => ⟨fun e he => ?_, ?_⟩⟩
  · have hname := Array.find?_some he
    have hmem := Array.mem_toList_iff.mpr (Array.mem_of_find?_eq_some he)
    rw [hentries, List.mem_map] at hmem
    obtain ⟨⟨rva, i⟩, hmem, rfl⟩ := hmem
    obtain ⟨k, hlast⟩ := hnames.getElem?_eq_some_iff.mp (of_decide_eq_true hname)
    exact ⟨k, i, hlast, (mem_orderedSlots rva i).mp hmem⟩
  · intro k i rva hlast hslot hnone
    have hmem :
        entryOf b sections directory d.ordinalBase (.ofList names) (rva, i) ∈ t.entries := by
      rw [← Array.mem_toList_iff, hentries]
      exact List.mem_map_of_mem ((mem_orderedSlots rva i).mpr hslot)
    have hname := hnames.getElem?_eq_some_iff.mpr ⟨k, hlast⟩
    exact Array.find?_eq_none.mp hnone _ hmem (decide_eq_true hname)

/-- A name that no other row has is missed exactly if a later row names its slot as well. If it is
found, the entry has the address of the slot. -/
theorem read_named? (hpresent : directory.isPresent = true)
    (h : read b sections directory maxExports = .ok t) :
    ∃ offset d functionsAt, sections.offset? directory.rva = some offset ∧
      Directory.read b offset = .ok d ∧ sections.offset? d.functionsRva = some functionsAt ∧
        ∀ k i rva name, RowNames b sections d maxExports k i name →
          (∀ j slot, RowNames b sections d maxExports j slot name → j = k) →
          IsSlot b functionsAt (min d.functionCount (.ofNat maxExports)).toNat i rva →
          (t.named? name = none ↔ ∃ j other, k < j ∧ RowNames b sections d maxExports j i other) ∧
            ∀ e, t.named? name = some e → e.rva = rva := by
  obtain ⟨offset, d, functionsAt, hoffset, hd, hfunctions, hnames⟩ :=
    exists_lastNames_of_read hpresent h
  refine ⟨offset, d, functionsAt, hoffset, hd, hfunctions,
    fun k i rva name hrow hunique hslot => ?_⟩
  obtain ⟨hfound, hlast⟩ := hnames name
  -- What is found comes from this row, so this row is the last one for its slot.
  have hentry (e : ExportEntry) (he : t.named? name = some e) :
      e.rva = rva ∧ NamesLast b sections d maxExports k i name := by
    obtain ⟨k', i', hlast', hslot'⟩ := hfound e he
    obtain rfl := hunique k' i' hlast'.row
    obtain rfl := hrow.slot_unique hlast'.row
    exact ⟨Option.some.inj (hslot'.cell.symm.trans hslot.cell), hlast'⟩
  refine ⟨⟨fun hnone => ?_, fun ⟨j, other, hj, hother⟩ => ?_⟩, fun e he => (hentry e he).1⟩
  · by_contra hlater
    refine hlast k i rva ⟨hrow, fun j other hother => ?_⟩ hslot hnone
    exact Nat.le_of_not_lt fun hj => hlater ⟨j, other, hj, hother⟩
  · rw [Option.eq_none_iff_forall_ne_some]
    intro e he
    exact absurd ((hentry e he).2.le j other hother) (Nat.not_le.mpr hj)

/-- Two names for the only function. -/
def twoNames : Bytes :=
  exportingImage 63
    ([0, 0, 0, 0, 1, 1, 2, 0x128, 0x12C, 0x134, 0x1000, 0x138, 0x13B, 0].flatMap
      (Bytes.littleEndian 4) ++ ["go", "run"].flatMap fun s => Text.bytes s ++ [0]) []

def twoNamesDirectory : Directory := ⟨0, 1, 1, 2, 0x128, 0x12C, 0x134⟩

/-- Both rows of the image name its only slot. -/
theorem exists_twoNames :
    ∃ image t, Image.ofFileBytes twoNames = .ok image ∧ image.exports = .ok t ∧
      image.exportDirectory = ⟨0x100, 63⟩ ∧ image.sections.offset? 0x100 = some 232 ∧
        Directory.read image.data 232 = .ok twoNamesDirectory ∧
          image.sections.offset? 0x128 = some 272 ∧ image.options.maxExports = 65536 ∧
            IsSlot image.data 272 (min twoNamesDirectory.functionCount (.ofNat 65536)).toNat 0
              0x1000 ∧
              ∀ k i name, RowNames image.data image.sections twoNamesDirectory 65536 k i name ↔
                k = 0 ∧ i = 0 ∧ name = "go" ∨ k = 1 ∧ i = 0 ∧ name = "run" := by
  have hfile : ∃ image, Image.ofFileBytes twoNames = .ok image ∧
      image.exportDirectory = ⟨0x100, 63⟩ ∧
      (image.sections.offset? 0x100 = some 232 ∧ image.sections.offset? 0x128 = some 272 ∧
        image.sections.offset? 0x12C = some 276 ∧ image.sections.offset? 0x134 = some 284) ∧
      rowAt? twoNames image.sections 276 284 0 = some (0, "go") ∧
        rowAt? twoNames image.sections 276 284 1 = some (0, "run") := by
    decide +kernel
  obtain ⟨image, hparse, hdirectory, ⟨hat, hfunctions, hnamesAt, hordinalsAt⟩, hfirst, hsecond⟩ :=
    hfile
  have hdata : image.data = twoNames := (Image.readFrom_of_parse hparse).data_eq
  have hlimit : image.options.maxExports = 65536 := by
    rw [(Image.readFrom_of_parse hparse).options_eq]
  have hd : Directory.read twoNames 232 = .ok twoNamesDirectory := by decide +kernel
  have hnames : HasNames twoNamesDirectory (.ofNat 65536) := by decide
  obtain ⟨t, ht⟩ : ∃ t, read twoNames image.sections ⟨0x100, 63⟩ 65536 = .ok t :=
    ⟨_, read_eq_ok (by decide) hat hd (.none rfl) hfunctions (.tables hnames hnamesAt hordinalsAt)⟩
  have hexports : image.exports = .ok t := by
    rw [Image.exports, ← Image.exportDirectory, hdata, hdirectory, hlimit, ht]
  rw [← hdata] at hd hfirst hsecond
  refine ⟨image, t, hparse, hexports, hdirectory, hat, hd, hfunctions, hlimit, ?_,
    fun k i name => ?_⟩
  · rw [hdata]
    exact ⟨by decide, by decide +kernel, by decide⟩
  · rw [rowNames_iff hnames hnamesAt hordinalsAt]
    constructor
    · rintro ⟨hk, hrow⟩
      obtain rfl | rfl : k = 0 ∨ k = 1 := by
        have hcount : (min twoNamesDirectory.nameCount (.ofNat 65536)).toNat = 2 := by decide
        omega
      · rw [hfirst] at hrow
        obtain ⟨rfl, rfl⟩ := Prod.mk.inj (Option.some.inj hrow)
        exact .inl ⟨rfl, rfl, rfl⟩
      · rw [hsecond] at hrow
        obtain ⟨rfl, rfl⟩ := Prod.mk.inj (Option.some.inj hrow)
        exact .inr ⟨rfl, rfl, rfl⟩
    · rintro (⟨rfl, rfl, rfl⟩ | ⟨rfl, rfl, rfl⟩)
      · exact ⟨by decide, hfirst⟩
      · exact ⟨by decide, hsecond⟩

/-- The name of the second row is found, and that of the first one is not. -/
theorem twoNames_named? :
    ∃ image t, Image.ofFileBytes twoNames = .ok image ∧ image.exports = .ok t ∧
      t.named? "go" = none ∧ ∃ e, t.named? "run" = some e ∧ e.rva = 0x1000 := by
  obtain ⟨image, t, hparse, hexports, hdirectory, hat, hd, hfunctions, hlimit, hslot, hrows⟩ :=
    exists_twoNames
  have hpresent : image.exportDirectory.isPresent = true := by
    rw [hdirectory]
    decide
  obtain ⟨offset, d, functionsAt, hat', hd', hfunctions', hnamed⟩ := read_named? hpresent hexports
  rw [hdirectory, hat] at hat'
  obtain rfl := Option.some.inj hat'
  obtain rfl := Except.ok.inj (hd.symm.trans hd')
  obtain rfl := Option.some.inj (hfunctions.symm.trans hfunctions')
  rw [hlimit] at hnamed
  have hgo := (hrows 0 0 "go").mpr (by decide)
  have hrun := (hrows 1 0 "run").mpr (by decide)
  obtain ⟨hnone, -⟩ := hnamed 0 0 0x1000 "go" hgo (by simp [hrows]) hslot
  obtain ⟨hmissed, hfound⟩ := hnamed 1 0 0x1000 "run" hrun (by simp [hrows]) hslot
  refine ⟨image, t, hparse, hexports, hnone.mpr ⟨1, "run", by decide, hrun⟩, ?_⟩
  have hsome : t.named? "run" ≠ none := by
    rw [Ne, hmissed]
    rintro ⟨j, other, hj, hother⟩
    rw [hrows] at hother
    omega
  obtain ⟨e, he⟩ := Option.ne_none_iff_exists'.mp hsome
  exact ⟨e, he, hfound e he⟩

/-- No other row has the name of the first one, whose slot is in use, but it is not found. -/
theorem twoNames_loses_name :
    ∃ image t d functionsAt, Image.ofFileBytes twoNames = .ok image ∧ image.exports = .ok t ∧
      image.sections.offset? image.exportDirectory.rva = some 232 ∧
        Directory.read image.data 232 = .ok d ∧
          image.sections.offset? d.functionsRva = some functionsAt ∧
          RowNames image.data image.sections d image.options.maxExports 0 0 "go" ∧
          (∀ j slot, RowNames image.data image.sections d image.options.maxExports j slot "go" →
            j = 0) ∧
          IsSlot image.data functionsAt
            (min d.functionCount (.ofNat image.options.maxExports)).toNat 0 0x1000 ∧
          ¬ ∃ e, t.named? "go" = some e ∧ e.rva = 0x1000 := by
  obtain ⟨image, t, hparse, hexports, hdirectory, hat, hd, hfunctions, hlimit, hslot, hrows⟩ :=
    exists_twoNames
  have hpresent : image.exportDirectory.isPresent = true := by
    rw [hdirectory]
    decide
  obtain ⟨offset, d, functionsAt, hat', hd', hfunctions', hnames⟩ :=
    exists_lastNames_of_read hpresent hexports
  rw [hdirectory, hat] at hat'
  obtain rfl := Option.some.inj hat'
  obtain rfl := Except.ok.inj (hd.symm.trans hd')
  rw [hlimit] at hnames
  refine ⟨image, t, _, 272, hparse, hexports, by rw [hdirectory, hat], hd, hfunctions, ?_⟩
  rw [hlimit]
  refine ⟨(hrows 0 0 "go").mpr (by decide), by simp [hrows], hslot, ?_⟩
  rintro ⟨e, he, -⟩
  obtain ⟨k, i, hlast, -⟩ := (hnames "go").1 e he
  obtain ⟨rfl, rfl⟩ : k = 0 ∧ i = 0 := by simpa using (hrows k i "go").mp hlast.row
  exact absurd (hlast.le 1 "run" ((hrows 1 0 "run").mpr (by decide))) (by decide)

end ExportTable

end Postmortem
