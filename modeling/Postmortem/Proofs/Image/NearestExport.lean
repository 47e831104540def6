import Postmortem.Proofs.Bisect
import Postmortem.Proofs.Image.ExportSlots
import Postmortem.Proofs.Image.LoadedExports
import Postmortem.Proofs.Image.NearestFunction

/-!
# The nearest export

The entries of an export table are in the order of their addresses, so the search by halving finds
where those end that start at an address or before it. The last of these that names code is the
answer. Of the answers of its two tables an image gives the nearer one, so nothing that either table
shows lies in between.
-/
namespace Postmortem

theorem ExportEntry.isNamedCode_iff {e : ExportEntry} :
    e.isNamedCode = true ↔ e.name.isSome ∧ e.forwarder = none := by
  simp [isNamedCode]

namespace ExportTable

variable {t : ExportTable} {e f : ExportEntry} {rva : UInt32} {i n : Nat}

/-! ## The order of the entries -/

/-- The slot of the address table that an entry stands for. -/
def slotOf (t : ExportTable) (e : ExportEntry) : Nat := (e.ordinal - t.ordinalBase).toNat

/-- Whether an entry has a smaller address than another one, or the same one in an earlier slot. -/
def Precedes (t : ExportTable) (e f : ExportEntry) : Prop :=
  e.rva < f.rva ∨ e.rva = f.rva ∧ t.slotOf e < t.slotOf f

theorem Precedes.rva_le (h : t.Precedes e f) : e.rva ≤ f.rva := by
  obtain hlt | ⟨heq, -⟩ := h
  · exact UInt32.le_of_lt hlt
  · exact heq ▸ UInt32.le_refl _

theorem Precedes.asymm (h : t.Precedes e f) : ¬ t.Precedes f e := by
  simp only [Precedes, UInt32.lt_iff_toNat_lt, ← UInt32.toNat_inj] at h ⊢
  omega

/-- Whether the entries are in the order of their addresses and then of their slots. -/
def Ordered (t : ExportTable) : Prop := t.entries.toList.Pairwise t.Precedes

theorem slotOf_entryOf {b : Bytes} {sections : SectionTable} {directory : DataDirectory}
    {names : Std.HashMap Nat String} {slot : UInt32 × Nat} (hslot : slot.2 < UInt32.size) :
    t.slotOf (entryOf b sections directory t.ordinalBase names slot) = slot.2 := by
  simp only [slotOf, entryOf, UInt32.add_comm t.ordinalBase, UInt32.add_sub_cancel]
  exact UInt32.toNat_ofNat_of_lt' hslot

theorem ordered_of_read {b : Bytes} {sections : SectionTable} {directory : DataDirectory}
    {maxExports : Nat} (h : read b sections directory maxExports = .ok t) : t.Ordered := by
  by_cases hpresent : directory.isPresent = true
  · obtain ⟨_, d, functionsAt, names, -, -, -, -, hbase, hentries⟩ := exists_of_read hpresent h
    rw [Ordered, hentries, ← hbase, List.pairwise_map]
    refine (orderedSlots_pairwise _).imp_of_mem fun {p q} hp hq hpq => ?_
    have hsize {slot : UInt32 × Nat} (hslot : slot ∈ orderedSlots (readAddresses b functionsAt
        (min d.functionCount (.ofNat maxExports)).toNat)) : slot.2 < UInt32.size :=
      Nat.lt_trans ((mem_orderedSlots slot.1 slot.2).mp hslot).lt_count (UInt32.toNat_lt _)
    rw [Precedes, slotOf_entryOf (hsize hp), slotOf_entryOf (hsize hq)]
    exact hpq
  · rw [read_of_not_present hpresent] at h
    obtain rfl := Except.ok.inj h
    exact List.Pairwise.nil

/-! ## The search -/

/-- Whether entry number `i` starts at an address or before it. -/
def startsBy (t : ExportTable) (rva : UInt32) (i : Nat) : Bool :=
  match t.entries[i]? with
  | some e => e.rva ≤ rva
  | none => false

theorem startsBy_iff : t.startsBy rva i = true ↔ ∃ e, t.entries[i]? = some e ∧ e.rva ≤ rva := by
  unfold startsBy
  cases t.entries[i]? <;> simp

theorem nearest?_eq_map (t : ExportTable) (rva : UInt32) :
    t.nearest? rva =
      (lastNamedCode? t.entries (partitionPoint t.entries.size (t.startsBy rva))).map
        fun e => (e, rva - e.rva) := by
  rw [Option.map_eq_bind]
  rfl

theorem lastNamedCode?_eq_find? (entries : Array ExportEntry) (n : Nat) :
    lastNamedCode? entries n = (entries.toList.take n).reverse.find? (·.isNamedCode) := by
  induction n with
  | zero => rfl
  | succ n ih =>
    rw [lastNamedCode?, List.take_add_one, List.reverse_append, List.find?_append, ← ih,
      Array.getElem?_toList]
    cases entries[n]? with
    | none => rfl
    | some e => cases hcode : e.isNamedCode <;> simp [hcode]

theorem Ordered.startsBy_of_le (h : t.Ordered) {j : Nat} (hij : i ≤ j)
    (hj : t.startsBy rva j = true) : t.startsBy rva i = true := by
  rw [startsBy_iff] at hj ⊢
  obtain ⟨f, hf, hle⟩ := hj
  obtain rfl | hlt := Nat.eq_or_lt_of_le hij
  · exact ⟨f, hf, hle⟩
  · rw [← Array.getElem?_toList] at hf
    obtain ⟨hj, rfl⟩ := List.getElem?_eq_some_iff.mp hf
    have hprecedes := List.pairwise_iff_getElem.mp h i j (Nat.lt_trans hlt hj) hj hlt
    refine ⟨_, ?_, UInt32.le_trans hprecedes.rva_le hle⟩
    rw [← Array.getElem?_toList, List.getElem?_eq_getElem]

theorem take_eq_filter {α : Type} {l : List α} {p : α → Bool}
    (h : ∀ i (hi : i < l.length), i < n ↔ p l[i] = true) : l.take n = l.filter p := by
  have htake : (l.take n).filter p = l.take n := by
    rw [List.filter_eq_self]
    intro a ha
    obtain ⟨i, hi, rfl⟩ := List.mem_take_iff_getElem.mp ha
    exact (h i (by omega)).mp (by omega)
  have hdrop : (l.drop n).filter p = [] := by
    rw [List.filter_eq_nil_iff]
    intro a ha
    obtain ⟨i, hi, rfl⟩ := List.mem_drop_iff_getElem.mp ha
    exact mt (h (n + i) (by omega)).mpr (by omega)
  rw [← List.append_nil (l.take n), ← hdrop]
  conv_rhs => rw [← List.take_append_drop n l, List.filter_append, htake]

/-- The entries before the end that the search finds are those that start early enough. -/
theorem Ordered.take_partitionPoint (h : t.Ordered) (rva : UInt32) :
    t.entries.toList.take (partitionPoint t.entries.size (t.startsBy rva)) =
      t.entries.toList.filter (·.rva ≤ rva) := by
  refine take_eq_filter fun i hi => ?_
  rw [lt_partitionPoint_iff (fun _ _ => h.startsBy_of_le) i, startsBy_iff, ← Array.getElem?_toList,
    List.getElem?_eq_getElem hi]
  simpa using fun _ => hi

/-- The entry that the search for an address ends at, of those that name code: no other one that
starts at the address or before it comes behind. -/
structure IsNearest (t : ExportTable) (rva : UInt32) (e : ExportEntry) : Prop where
  mem : e ∈ t.entries
  isNamedCode : e.isNamedCode = true
  rva_le : e.rva ≤ rva
  last : ∀ f ∈ t.entries, f.isNamedCode = true → f.rva ≤ rva → f = e ∨ t.Precedes f e

theorem IsNearest.unique (he : t.IsNearest rva e) (hf : t.IsNearest rva f) : e = f := by
  obtain heq | hprecedes := hf.last e he.mem he.isNamedCode he.rva_le
  · exact heq
  · obtain heq | hprecedes' := he.last f hf.mem hf.isNamedCode hf.rva_le
    · exact heq.symm
    · exact absurd hprecedes hprecedes'.asymm

theorem isNearest_of_eq_singleton (h : t.entries = #[e]) (hcode : e.isNamedCode = true)
    (hle : e.rva ≤ rva) : t.IsNearest rva e :=
  ⟨by simp [h], hcode, hle, fun f hf _ _ => .inl (by simpa [h] using hf)⟩

/-- The entries that can be the answer for an address. -/
def candidates (t : ExportTable) (rva : UInt32) : List ExportEntry :=
  t.entries.toList.filter fun e => e.isNamedCode && e.rva ≤ rva

theorem mem_candidates :
    e ∈ t.candidates rva ↔ e ∈ t.entries ∧ e.isNamedCode = true ∧ e.rva ≤ rva := by
  simp [candidates]

theorem Ordered.nearest?_eq (h : t.Ordered) (rva : UInt32) :
    t.nearest? rva = (t.candidates rva).getLast?.map fun e => (e, rva - e.rva) := by
  rw [nearest?_eq_map, lastNamedCode?_eq_find?, h.take_partitionPoint, ← List.head?_filter,
    List.filter_reverse, List.head?_reverse, List.filter_filter, candidates]

theorem Ordered.isNearest_of_getLast? (h : t.Ordered)
    (he : (t.candidates rva).getLast? = some e) : t.IsNearest rva e := by
  obtain ⟨before, hbefore⟩ := List.getLast?_eq_some_iff.mp he
  obtain ⟨hmem, hcode, hle⟩ : e ∈ t.entries ∧ e.isNamedCode = true ∧ e.rva ≤ rva :=
    mem_candidates.mp (by simp [hbefore])
  have hordered : (t.candidates rva).Pairwise t.Precedes := List.Pairwise.filter _ h
  rw [hbefore, List.pairwise_append] at hordered
  refine ⟨hmem, hcode, hle, fun f hf hcode' hle' => ?_⟩
  have hcandidate := mem_candidates.mpr ⟨hf, hcode', hle'⟩
  rw [hbefore, List.mem_append, List.mem_singleton] at hcandidate
  exact hcandidate.symm.imp_right fun hf => hordered.2.2 f hf e (List.mem_singleton_self e)

theorem exists_getLast?_candidates (he : e ∈ t.entries) (hcode : e.isNamedCode = true)
    (hle : e.rva ≤ rva) : ∃ f, (t.candidates rva).getLast? = some f := by
  rw [← Option.ne_none_iff_exists', Ne, List.getLast?_eq_none_iff]
  exact List.ne_nil_of_mem (mem_candidates.mpr ⟨he, hcode, hle⟩)

theorem Ordered.exists_isNearest_iff (h : t.Ordered) :
    (∃ e, t.IsNearest rva e) ↔ ∃ e ∈ t.entries, e.isNamedCode = true ∧ e.rva ≤ rva := by
  constructor
  · rintro ⟨e, he⟩
    exact ⟨e, he.mem, he.isNamedCode, he.rva_le⟩
  · rintro ⟨e, he, hcode, hle⟩
    obtain ⟨f, hf⟩ := exists_getLast?_candidates he hcode hle
    exact ⟨f, h.isNearest_of_getLast? hf⟩

theorem Ordered.getLast?_candidates (h : t.Ordered) :
    (t.candidates rva).getLast? = some e ↔ t.IsNearest rva e := by
  refine ⟨h.isNearest_of_getLast?, fun he => ?_⟩
  obtain ⟨f, hf⟩ := exists_getLast?_candidates he.mem he.isNamedCode he.rva_le
  rw [hf, he.unique (h.isNearest_of_getLast? hf)]

theorem Ordered.nearest?_eq_some_iff (h : t.Ordered) {k : UInt32} :
    t.nearest? rva = some (e, k) ↔ t.IsNearest rva e ∧ k = rva - e.rva := by
  rw [h.nearest?_eq, Option.map_eq_some_iff]
  simp only [h.getLast?_candidates, Prod.mk.injEq]
  constructor
  · rintro ⟨_, he, rfl, rfl⟩
    exact ⟨he, rfl⟩
  · rintro ⟨he, rfl⟩
    exact ⟨e, he, rfl, rfl⟩

end ExportTable

namespace Image

variable {image : Image} {address : UInt64} {rva : UInt32} {table : ExportTable} {e : ExportEntry}
  {m : SymbolMatch}

theorem ordered_of_exports (h : image.exports = .ok table) : table.Ordered :=
  ExportTable.ordered_of_read h

/-! ## Exports at addresses -/

theorem rvaOf?_eq_some_iff :
    image.rvaOf? address = some rva ↔ image.base.toNat + rva.toNat = address.toNat := by
  have hrva := rva.toNat_lt
  have hsize : UInt32.size = 2 ^ 32 := rfl
  unfold rvaOf?
  by_cases hle : image.base ≤ address
  · have hsub := UInt64.toNat_sub_of_le _ _ hle
    rw [UInt64.le_iff_toNat_le] at hle
    by_cases hfits : (address - image.base).toNat < UInt32.size
    · have hnear : ¬ (address < image.base ∨ UInt32.size ≤ (address - image.base).toNat) := by
        rw [UInt64.lt_iff_toNat_lt]
        omega
      rw [if_neg hnear, Option.some_inj, ← UInt32.toNat_inj, UInt64.toNat_toUInt32,
        Nat.mod_eq_of_lt hfits]
      omega
    · rw [if_pos (.inr (Nat.not_lt.mp hfits))]
      refine iff_of_false (by simp) ?_
      omega
  · rw [if_pos (.inl (UInt64.not_le.mp hle))]
    rw [UInt64.le_iff_toNat_le] at hle
    refine iff_of_false (by simp) ?_
    omega

/-- How an entry of the export table is shown for an address. -/
structure ShowsExport (image : Image) (address : UInt64) (e : ExportEntry) (m : SymbolMatch) :
    Prop where
  name_eq : e.name = some m.name
  address_eq : m.address.toNat = image.base.toNat + e.rva.toNat
  displacement_eq : m.address.toNat + m.displacement.toNat = address.toNat

/-- What is shown of an entry does not leave 64 bits. -/
theorem showsExport_iff (hrva : image.rvaOf? address = some rva) (hle : e.rva ≤ rva) :
    image.ShowsExport address e m ↔ ∃ name, e.name = some name ∧
      m = ⟨name, image.base + e.rva.toUInt64, (rva - e.rva).toUInt64⟩ := by
  rw [rvaOf?_eq_some_iff] at hrva
  have haddress := address.toNat_lt
  have hsub := UInt32.toNat_sub_of_le _ _ hle
  rw [UInt32.le_iff_toNat_le] at hle
  have hstart : (image.base + e.rva.toUInt64).toNat = image.base.toNat + e.rva.toNat := by
    rw [UInt64.toNat_add, UInt32.toNat_toUInt64]
    exact Nat.mod_eq_of_lt (by omega)
  constructor
  · rintro ⟨hname, hat, hdisplacement⟩
    obtain ⟨name, start, displacement⟩ := m
    refine ⟨name, hname, ?_⟩
    simp only at hat hdisplacement
    rw [SymbolMatch.mk.injEq, ← UInt64.toNat_inj, ← UInt64.toNat_inj, hstart, UInt32.toNat_toUInt64]
    exact ⟨rfl, by omega, by omega⟩
  · rintro ⟨name, hname, rfl⟩
    refine ⟨hname, hstart, ?_⟩
    simp only [hstart, UInt32.toNat_toUInt64]
    omega

theorem nearestIn?_eq_some_iff (hordered : table.Ordered) (hrva : image.rvaOf? address = some rva) :
    image.nearestIn? rva table = some m ↔
      ∃ e, table.IsNearest rva e ∧ image.ShowsExport address e m := by
  simp only [nearestIn?, Option.bind_eq_bind, Option.bind_eq_some_iff, Prod.exists,
    hordered.nearest?_eq_some_iff]
  constructor
  · rintro ⟨e, _, ⟨he, rfl⟩, name, hname, ⟨⟩⟩
    exact ⟨e, he, (showsExport_iff hrva he.rva_le).mpr ⟨name, hname, rfl⟩⟩
  · rintro ⟨e, he, hshows⟩
    obtain ⟨name, hname, rfl⟩ := (showsExport_iff hrva he.rva_le).mp hshows
    exact ⟨e, _, ⟨he, rfl⟩, name, hname, rfl⟩

theorem nearestExport?_eq_some_iff :
    image.nearestExport? address = some m ↔
      ∃ rva table e, image.base.toNat + rva.toNat = address.toNat ∧ image.exports = .ok table ∧
        table.IsNearest rva e ∧ image.ShowsExport address e m := by
  simp only [nearestExport?, Option.bind_eq_bind, Option.bind_eq_some_iff]
  constructor
  · rintro ⟨rva, hrva, table, htable, hm⟩
    have hexports : image.exports = .ok table := by
      cases hexports : image.exports <;> simp_all [Except.toOption]
    obtain ⟨e, he, hshows⟩ := (nearestIn?_eq_some_iff (ordered_of_exports hexports) hrva).mp hm
    exact ⟨rva, table, e, rvaOf?_eq_some_iff.mp hrva, hexports, he, hshows⟩
  · rintro ⟨rva, table, e, hrva, hexports, he, hshows⟩
    have hrva := rvaOf?_eq_some_iff.mpr hrva
    refine ⟨rva, hrva, table, by simp [hexports, Except.toOption], ?_⟩
    exact (nearestIn?_eq_some_iff (ordered_of_exports hexports) hrva).mpr ⟨e, he, hshows⟩

theorem isSome_nearestExport?_iff :
    (image.nearestExport? address).isSome ↔
      ∃ rva table, image.base.toNat + rva.toNat = address.toNat ∧ image.exports = .ok table ∧
        ∃ e ∈ table.entries, e.isNamedCode = true ∧ e.rva ≤ rva := by
  rw [Option.isSome_iff_exists]
  constructor
  · rintro ⟨m, hm⟩
    obtain ⟨rva, table, e, hrva, hexports, he, -⟩ := nearestExport?_eq_some_iff.mp hm
    exact ⟨rva, table, hrva, hexports, e, he.mem, he.isNamedCode, he.rva_le⟩
  · rintro ⟨rva, table, hrva, hexports, hcandidate⟩
    obtain ⟨e, he⟩ := (ordered_of_exports hexports).exists_isNearest_iff.mpr hcandidate
    obtain ⟨name, hname⟩ :=
      Option.isSome_iff_exists.mp (ExportEntry.isNamedCode_iff.mp he.isNamedCode).1
    have hshows := (showsExport_iff (rvaOf?_eq_some_iff.mpr hrva) he.rva_le).mpr ⟨name, hname, rfl⟩
    exact ⟨_, nearestExport?_eq_some_iff.mpr ⟨rva, table, e, hrva, hexports, he, hshows⟩⟩

/-! ## The nearer answer -/

variable {x y : Option SymbolMatch}

theorem nearer?_eq_none_iff : nearer? x y = none ↔ x = none ∧ y = none := by
  cases x <;> cases y <;> simp only [nearer?, reduceCtorEq, and_false, false_and, and_self]
  split <;> simp

theorem nearer?_eq_some_iff :
    nearer? x y = some m ↔
      (x = some m ∧ ∀ f, y = some f → m.displacement ≤ f.displacement) ∨
        y = some m ∧ ∀ e, x = some e → m.displacement < e.displacement := by
  cases x with
  | none => simp [nearer?]
  | some e =>
    cases y with
    | none => simp [nearer?]
    | some f =>
      by_cases hlt : f.displacement < e.displacement
      · have hnot : ¬ e.displacement ≤ f.displacement := UInt64.not_le.mpr hlt
        simp only [nearer?, if_pos hlt, Option.some_inj, forall_eq']
        constructor
        · rintro rfl
          exact .inr ⟨rfl, hlt⟩
        · rintro (⟨rfl, hle⟩ | ⟨rfl, -⟩)
          · exact absurd hle hnot
          · rfl
      · simp only [nearer?, if_neg hlt, Option.some_inj, forall_eq']
        constructor
        · rintro rfl
          exact .inl ⟨rfl, UInt64.not_lt.mp hlt⟩
        · rintro (⟨rfl, -⟩ | ⟨rfl, hlt'⟩)
          · rfl
          · exact absurd hlt' hlt

theorem displacement_of_nearestExport? (h : image.nearestExport? address = some m) :
    m.address.toNat + m.displacement.toNat = address.toNat := by
  obtain ⟨_, _, _, _, _, _, hshows⟩ := nearestExport?_eq_some_iff.mp h
  exact hshows.displacement_eq

theorem displacement_of_nearestFunction? (h : image.nearestFunction? address = some m) :
    m.address.toNat + m.displacement.toNat = address.toNat := by
  obtain ⟨_, f, _, _, hf, _⟩ := SymbolMatch.exists_of_nearest? h
  exact SymbolMatch.displacement_of_ofFunction? hf

/-- Neither table has an answer that starts behind the one that is given. -/
theorem address_le_of_nearestSymbol? (h : image.nearestSymbol? address = some m) :
    (∀ e, image.nearestExport? address = some e → e.address.toNat ≤ m.address.toNat) ∧
      ∀ f, image.nearestFunction? address = some f → f.address.toNat ≤ m.address.toNat := by
  obtain ⟨hm, hle⟩ | ⟨hm, hlt⟩ := nearer?_eq_some_iff.mp h
  · have hsum := displacement_of_nearestExport? hm
    refine ⟨fun e he => ?_, fun f hf => ?_⟩
    · rw [Option.some.inj (hm.symm.trans he)]
    · have hsum' := displacement_of_nearestFunction? hf
      have hle := UInt64.le_iff_toNat_le.mp (hle f hf)
      omega
  · have hsum := displacement_of_nearestFunction? hm
    refine ⟨fun e he => ?_, fun f hf => ?_⟩
    · have hsum' := displacement_of_nearestExport? he
      have hlt := UInt64.lt_iff_toNat_lt.mp (hlt e he)
      omega
    · rw [Option.some.inj (hm.symm.trans hf)]

/-- The answer of the export table starts no earlier than any entry that could be one. -/
theorem exists_nearestExport? (hrva : image.base.toNat + rva.toNat = address.toNat)
    (hexports : image.exports = .ok table) (he : e ∈ table.entries)
    (hcode : e.isNamedCode = true) (hle : e.rva ≤ rva) :
    ∃ m, image.nearestExport? address = some m ∧
      image.base.toNat + e.rva.toNat ≤ m.address.toNat := by
  have hsome := isSome_nearestExport?_iff.mpr ⟨rva, table, hrva, hexports, e, he, hcode, hle⟩
  obtain ⟨m, hm⟩ := Option.isSome_iff_exists.mp hsome
  obtain ⟨rva', table', f, hrva', hexports', hf, hshows⟩ := nearestExport?_eq_some_iff.mp hm
  obtain rfl := Except.ok.inj (hexports.symm.trans hexports')
  obtain rfl : rva = rva' := UInt32.toNat_inj.mp (by omega)
  have hbefore : e.rva ≤ f.rva := by
    obtain rfl | hprecedes := hf.last e he hcode hle
    · exact UInt32.le_refl _
    · exact hprecedes.rva_le
  rw [UInt32.le_iff_toNat_le] at hbefore
  refine ⟨m, hm, ?_⟩
  rw [hshows.address_eq]
  omega

/-- The answer of the symbol table starts no earlier than any function that is shown. -/
theorem exists_nearestFunction? {data : Bytes} {options : ImageOptions}
    (h : image.ReadFrom data options) {t : SymbolTable} (ht : image.symbolTable = some t)
    (hfits : t.AddressesFit image.data image.sections image.base) {i start : Nat} {name : String}
    (hshows : t.Shows image.data image.sections image.base (!image.is64Bit) i name start)
    (hle : start ≤ address.toNat) :
    ∃ m, image.nearestFunction? address = some m ∧ start ≤ m.address.toNat := by
  have hcovered : t.IsCovered image.data := by
    obtain ⟨-, hnone⟩ | ⟨t', ht', -, hcovered⟩ := h.isCovered.symbolTable_cases
    · rw [hnone] at ht
      cases ht
    · rwa [Option.some.inj (ht.symm.trans ht')]
  have hfunctions : image.nearestFunction? address = SymbolMatch.nearest? (!image.is64Bit) address
      (t.functions image.data image.sections image.base) := by
    simp only [nearestFunction?, functions, ht]
  have hsome : image.nearestFunction? address ≠ none := by
    rw [hfunctions, Ne, SymbolTable.nearest?_functions_eq_none_iff hcovered hfits, not_not]
    exact ⟨i, name, start, hshows, hle⟩
  obtain ⟨m, hm⟩ := Option.ne_none_iff_exists'.mp hsome
  rw [hfunctions] at hm
  obtain ⟨_, hnearest⟩ := SymbolTable.exists_nearestAt hcovered hfits hm
  have hbefore := hnearest.nearest i name start hshows hle
  exact ⟨m, hfunctions ▸ hm, by omega⟩

variable {data : Bytes} {options : ImageOptions} {path : Option String}

/-- The answer of the export table for an address is the last entry, in the order of addresses and
slots, that names code and starts before the address or at it. An image gives the nearer one of this
and of the answer of its symbol table, and the export if both are as near. So nothing that one of
the tables could have answered with starts behind the answer. -/
theorem nearestSymbol?_nearest (hparse : parse data options path = .ok image) (address : UInt64) :
    ((image.nearestExport? address).isSome ↔
      ∃ rva table, image.base.toNat + rva.toNat = address.toNat ∧ image.exports = .ok table ∧
        ∃ e ∈ table.entries, e.isNamedCode = true ∧ e.rva ≤ rva) ∧
    (∀ m, image.nearestExport? address = some m ↔
      ∃ rva table e, image.base.toNat + rva.toNat = address.toNat ∧ image.exports = .ok table ∧
        table.IsNearest rva e ∧ image.ShowsExport address e m) ∧
    (image.nearestSymbol? address = none ↔
      image.nearestExport? address = none ∧ image.nearestFunction? address = none) ∧
    ∀ m, image.nearestSymbol? address = some m →
      ((image.nearestExport? address = some m ∧
          ∀ f, image.nearestFunction? address = some f → m.displacement ≤ f.displacement) ∨
        image.nearestFunction? address = some m ∧
          ∀ e, image.nearestExport? address = some e → m.displacement < e.displacement) ∧
      ∀ rva table, image.base.toNat + rva.toNat = address.toNat → image.exports = .ok table →
        (∀ t ∈ image.symbolTable, t.AddressesFit image.data image.sections image.base) →
        (∀ e ∈ table.entries, e.isNamedCode = true → e.rva ≤ rva →
          image.base.toNat + e.rva.toNat ≤ m.address.toNat) ∧
        ∀ t ∈ image.symbolTable, ∀ i name start,
          t.Shows image.data image.sections image.base (!image.is64Bit) i name start →
            start ≤ address.toNat → start ≤ m.address.toNat := by
  refine ⟨isSome_nearestExport?_iff, fun m => nearestExport?_eq_some_iff, nearer?_eq_none_iff,
    fun m hm => ⟨nearer?_eq_some_iff.mp hm, fun rva table hrva hexports hfits => ⟨?_, ?_⟩⟩⟩
  · intro e he hcode hle
    obtain ⟨found, hfound, hbefore⟩ := exists_nearestExport? hrva hexports he hcode hle
    exact Nat.le_trans hbefore ((address_le_of_nearestSymbol? hm).1 found hfound)
  · intro t ht i name start hshows hle
    obtain ⟨found, hfound, hbefore⟩ :=
      exists_nearestFunction? (readFrom_of_parse hparse) ht (hfits t ht) hshows hle
    exact Nat.le_trans hbefore ((address_le_of_nearestSymbol? hm).2 found hfound)

/-! ## An image with one export -/

/-- Whether an image has the tables of `ExportTable.oneExport`. -/
def HasOneExport (image : Image) (rva : UInt32) : Prop :=
  image.exportDirectory.isPresent = true ∧ image.options.maxExports = 65536 ∧
    image.sections.offset? image.exportDirectory.rva = some 232 ∧
    ExportTable.Directory.read image.data 232 = .ok ⟨0, 1, 1, 1, 0x128, 0x12C, 0x130⟩ ∧
    (image.sections.offset? 0x128 = some 272 ∧ image.sections.offset? 0x12C = some 276 ∧
      image.sections.offset? 0x130 = some 280) ∧
    ExportTable.usedSlots (ExportTable.readAddresses image.data 272 1) = [(rva, 0)] ∧
      ExportTable.readNames image.data image.sections 276 280 1 = [(0, "go")]

instance (rva : UInt32) : Decidable (image.HasOneExport rva) :=
  inferInstanceAs (Decidable (_ ∧ _))

theorem HasOneExport.exports_eq (h : image.HasOneExport rva) :
    image.exports = .ok ⟨none, 1, #[⟨some "go", 1, rva,
      ExportTable.forwarder? image.data image.sections image.exportDirectory rva⟩]⟩ := by
  obtain ⟨hpresent, hlimit, hat, hd, ⟨hfunctions, hnamesAt, hordinalsAt⟩, hslots, hnames⟩ := h
  have hcount : (min (1 : UInt32) (.ofNat 65536)).toNat = 1 := by decide
  have hname : (Std.HashMap.ofList [(0, "go")])[0]? = some "go" := by
    rw [ExportTable.getElem?_ofList]
    rfl
  rw [exports, ← exportDirectory, hlimit,
    ExportTable.read_eq_ok hpresent hat hd (.none rfl) hfunctions
      (.tables (by decide) hnamesAt hordinalsAt)]
  simp only [ExportTable.mergeSort_entriesOf, ExportTable.orderedSlots, hcount, hslots, hnames,
    List.mergeSort_singleton, List.map_singleton, ExportTable.entryOf, hname]
  rfl

/-- An image with an export at 0x401000 and functions at 0x401000 and 0x401300. -/
def twoTables : Bytes :=
  ExportTable.oneExport 0x1000 []
    [SymbolTable.functionRecord "_start" 0xF00 0, SymbolTable.functionRecord "_stop" 0x1200 0]

/-- Of the export and the functions the last function is nearest to an address behind it. -/
theorem twoTables_nearest :
    ∃ image table, ofFileBytes twoTables = .ok image ∧ image.exports = .ok table ∧
      image.nearestExport? 0x401310 = some ⟨"go", 0x401000, 0x310⟩ ∧
      image.nearestSymbol? 0x401310 = some ⟨"stop", 0x401300, 0x10⟩ ∧
      (∀ e ∈ table.entries, e.isNamedCode = true → e.rva ≤ 0x1310 → e.rva ≤ 0x1300) ∧
      ∀ t ∈ image.symbolTable, ∀ i name start,
        t.Shows image.data image.sections image.base true i name start →
          start ≤ 0x401310 → start ≤ 0x401300 := by
  have hfile : ∃ image, ofFileBytes twoTables = .ok image ∧ image.HasOneExport 0x1000 ∧
      image.exportDirectory.contains 0x1000 = false ∧ image.base = 0x400000 ∧
        image.is64Bit = false ∧
          image.nearestFunction? 0x401310 = some ⟨"stop", 0x401300, 0x10⟩ := by
    decide +kernel
  obtain ⟨image, hparse, hone, hcontains, hbase, hbits, hfunction⟩ := hfile
  have hexports := hone.exports_eq
  rw [ExportTable.forwarder?_eq_none hcontains] at hexports
  have hrva : image.base.toNat + (0x1310 : UInt32).toNat = (0x401310 : UInt64).toNat := by
    rw [hbase]
    rfl
  obtain ⟨-, hexport, -, hsymbol⟩ := nearestSymbol?_nearest hparse 0x401310
  have hgo : image.nearestExport? 0x401310 = some ⟨"go", 0x401000, 0x310⟩ :=
    (hexport _).mpr ⟨0x1310, _, _, hrva, hexports,
      ExportTable.isNearest_of_eq_singleton rfl (by decide) (by decide),
      ⟨rfl, by rw [hbase]; rfl, by decide⟩⟩
  have hstop : image.nearestSymbol? 0x401310 = some ⟨"stop", 0x401300, 0x10⟩ := by
    rw [nearestSymbol?, hgo, hfunction]
    decide
  have hfits (t : SymbolTable) : t.AddressesFit image.data image.sections image.base :=
    SymbolTable.addressesFit_of_base_le (by rw [hbase]; decide)
  obtain ⟨-, hnone⟩ := hsymbol _ hstop
  obtain ⟨hentries, hfunctions⟩ := hnone 0x1310 _ hrva hexports fun t _ => hfits t
  refine ⟨image, _, hparse, hexports, hgo, hstop, fun e he hcode hle => ?_, ?_⟩
  · have hstart := hentries e he hcode hle
    rw [hbase] at hstart
    exact UInt32.le_iff_toNat_le.mpr (Nat.le_of_add_le_add_left hstart)
  · rw [hbits] at hfunctions
    exact hfunctions

end Image

end Postmortem
