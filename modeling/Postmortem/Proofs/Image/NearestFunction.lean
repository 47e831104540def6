import Postmortem.Proofs.Image.Coverage
import Postmortem.Proofs.Image.Written

/-!
# The nearest function of a symbol table

Of all functions that a symbol table names, a query is answered with the one that starts closest
before the address or at it. This is said in terms of the records of the table: which of them count
at all, and which of those that do is taken.
-/
namespace Postmortem

namespace FunctionSymbol

/-- The name that is shown for a symbol: where an underscore belongs to every name, one of them is
left out. -/
def shownName (stripUnderscore : Bool) (name : String) : String :=
  if stripUnderscore = true ∧ name.toList.head? = some '_' then String.ofList name.toList.tail
  else name

theorem matchName?_eq_some_iff {stripUnderscore : Bool} {f : FunctionSymbol} {name : String} :
    f.matchName? stripUnderscore = some name ↔
      f.name.toList.head? ≠ some '.' ∧ name ≠ "" ∧ name = shownName stripUnderscore f.name := by
  have hsome : ∀ t : String, t ≠ "" → (some t = some name ↔ name ≠ "" ∧ name = t) := by
    intro t ht
    constructor
    · rintro ⟨⟩
      exact ⟨ht, rfl⟩
    · rintro ⟨-, rfl⟩
      rfl
  unfold matchName? shownName
  cases hname : f.name.toList with
  | nil =>
    have hempty : f.name = "" := by simpa using hname
    cases stripUnderscore <;> simp_all
  | cons c rest =>
    have hne : f.name ≠ "" := by
      rintro hempty
      simp [hempty] at hname
    by_cases hdot : c = '.'
    · simp [hdot]
    · by_cases hstripped : stripUnderscore = true ∧ c = '_'
      · obtain ⟨rfl, rfl⟩ := hstripped
        cases rest with
        | nil => simp
        | cons d rest => simpa using hsome (String.ofList (d :: rest)) (by simp)
      · simp [hdot, hstripped, hsome f.name hne]

end FunctionSymbol

namespace SymbolMatch

/-- What a function is as an answer for an address, if it can be one. -/
def ofFunction? (stripUnderscore : Bool) (address : UInt64) (f : FunctionSymbol) :
    Option SymbolMatch :=
  if address < f.address then none
  else (f.matchName? stripUnderscore).map (⟨·, f.address, address - f.address⟩)

variable {stripUnderscore : Bool} {address : UInt64}

/-- The better one of the best answer so far and another one, if there is any. -/
def closer (best : Option SymbolMatch) (found : SymbolMatch) : Option SymbolMatch :=
  match best with
  | none => some found
  | some b => if found.displacement < b.displacement then some found else best

theorem nearest?_concat (functions : List FunctionSymbol) (f : FunctionSymbol) :
    nearest? stripUnderscore address (functions ++ [f]) =
      match ofFunction? stripUnderscore address f with
      | none => nearest? stripUnderscore address functions
      | some found => closer (nearest? stripUnderscore address functions) found := by
  unfold nearest? ofFunction?
  rw [List.foldl_concat]
  by_cases h : address < f.address
  · simp only [if_pos h]
  · cases hname : f.matchName? stripUnderscore <;> simp only [if_neg h] <;> rfl

/-- An answer is given exactly if some function can be one. -/
theorem nearest?_eq_none_iff (functions : List FunctionSymbol) :
    nearest? stripUnderscore address functions = none ↔
      ∀ f ∈ functions, ofFunction? stripUnderscore address f = none := by
  induction functions using List.reverseRecOn with
  | nil => simp [nearest?]
  | append_singleton functions f ih =>
    rw [nearest?_concat]
    cases hf : ofFunction? stripUnderscore address f with
    | none => simp [ih, hf, or_imp, forall_and]
    | some found =>
      have hsome : ∀ best, closer best found ≠ none := by
        rintro (_ | b)
        · simp [closer]
        · by_cases hlt : found.displacement < b.displacement <;> simp [closer, hlt]
      simp [hsome, hf, or_imp, forall_and]

/-- The answer is that of a function to which all before it are further, and none behind it
closer. -/
theorem exists_of_nearest? {functions : List FunctionSymbol} {m : SymbolMatch}
    (h : nearest? stripUnderscore address functions = some m) :
    ∃ before f after, functions = before ++ f :: after ∧
      ofFunction? stripUnderscore address f = some m ∧
      (∀ g ∈ before, ∀ found, ofFunction? stripUnderscore address g = some found →
        m.displacement < found.displacement) ∧
      ∀ g ∈ after, ∀ found, ofFunction? stripUnderscore address g = some found →
        m.displacement ≤ found.displacement := by
  induction functions using List.reverseRecOn generalizing m with
  | nil => simp [nearest?] at h
  | append_singleton functions f ih =>
    rw [nearest?_concat] at h
    cases hf : ofFunction? stripUnderscore address f with
    | none =>
      rw [hf] at h
      obtain ⟨before, g, after, rfl, hg, hbefore, hafter⟩ := ih h
      refine ⟨before, g, after ++ [f], by simp, hg, hbefore, ?_⟩
      simpa [or_imp, forall_and, hf] using hafter
    | some found =>
      rw [hf] at h
      cases hbest : nearest? stripUnderscore address functions with
      | none =>
        obtain rfl : found = m := by simpa [hbest, closer] using h
        rw [nearest?_eq_none_iff] at hbest
        exact ⟨functions, f, [], rfl, hf, by simp_all, by simp⟩
      | some best =>
        obtain ⟨before, g, after, rfl, hg, hbefore, hafter⟩ := ih hbest
        simp only [hbest, closer] at h
        split at h
        · next hlt =>
          obtain rfl := Option.some.inj h
          refine ⟨before ++ g :: after, f, [], rfl, hf, ?_, by simp⟩
          have hself : ∀ found', ofFunction? stripUnderscore address g = some found' →
              found.displacement < found'.displacement := by simp_all
          simp only [List.mem_append, List.mem_cons, or_imp, forall_and, forall_eq]
          refine ⟨fun x hx y hy => UInt64.lt_trans hlt (hbefore x hx y hy), hself, 
            fun x hx y hy => UInt64.lt_of_lt_of_le hlt (hafter x hx y hy)⟩
        · next hle =>
          obtain rfl := Option.some.inj h
          refine ⟨before, g, after ++ [f], by simp, hg, hbefore, ?_⟩
          simp only [List.mem_append, List.mem_singleton, or_imp, forall_and, forall_eq]
          refine ⟨hafter, ?_⟩
          simp_all

theorem ofFunction?_eq_some_iff {f : FunctionSymbol} {m : SymbolMatch} :
    ofFunction? stripUnderscore address f = some m ↔
      f.address ≤ address ∧ m.address = f.address ∧ m.displacement = address - f.address ∧
        f.name.toList.head? ≠ some '.' ∧ m.name ≠ "" ∧
        m.name = FunctionSymbol.shownName stripUnderscore f.name := by
  unfold ofFunction?
  by_cases h : address < f.address
  · simp [h, UInt64.not_le.mpr h]
  · have hle : f.address ≤ address := UInt64.not_lt.mp h
    simp only [h, if_false, Option.map_eq_some_iff, FunctionSymbol.matchName?_eq_some_iff]
    constructor
    · rintro ⟨name, ⟨hdot, hne, rfl⟩, rfl⟩
      exact ⟨hle, rfl, rfl, hdot, hne, rfl⟩
    · obtain ⟨name, start, displacement⟩ := m
      rintro ⟨-, rfl, rfl, hdot, hne, rfl⟩
      exact ⟨_, ⟨hdot, hne, rfl⟩, rfl⟩

theorem displacement_of_ofFunction? {f : FunctionSymbol} {m : SymbolMatch}
    (h : ofFunction? stripUnderscore address f = some m) :
    m.address.toNat + m.displacement.toNat = address.toNat := by
  obtain ⟨hle, haddress, hdisplacement, -⟩ := ofFunction?_eq_some_iff.mp h
  have hnat := UInt64.le_iff_toNat_le.mp hle
  rw [haddress, hdisplacement, UInt64.toNat_sub_of_le _ _ hle]
  omega

end SymbolMatch

namespace SymbolTable

/-- Record number `i` is that of a function with the given name, as it is written, that starts at
`start`. It does not continue another record, and its section has a header. The numbers are added
without a limit. -/
structure Describes (t : SymbolTable) (b : Bytes) (sections : SectionTable) (base : UInt64)
    (i : Nat) (name : String) (start : Nat) : Prop where
  isPrimary : t.IsPrimary b i
  isFunction : ∃ type, (t.record b i).u16? 14 = some type ∧ isFunctionType type = true
  name_eq : recordName? (t.strings b) (t.record b i) = some name
  start_eq : ∃ number s value, (t.record b i).i16? 12 = some number ∧
    sections.numbered? number = some s ∧ (t.record b i).u32? 8 = some value ∧
    start = base.toNat + s.header.rva.toNat + value.toNat

theorem function?_eq_some_iff {strings record : Bytes} {sections : SectionTable} {base : UInt64}
    {f : FunctionSymbol} :
    function? strings sections base record = some f ↔
      ∃ type number s name value storageClass,
        record.u16? 14 = some type ∧ isFunctionType type = true ∧
        record.i16? 12 = some number ∧ sections.numbered? number = some s ∧
        recordName? strings record = some name ∧ record.u32? 8 = some value ∧
        record.u8? 16 = some storageClass ∧
        f = ⟨name, base + s.header.rva.toUInt64 + value.toUInt64, number, storageClass⟩ := by
  simp only [function?, Option.bind_eq_bind, Option.bind_eq_some_iff, Option.guard_eq_some']
  constructor
  · rintro ⟨type, htype, _, hfunction, number, hnumber, s, hs, name, hname, value, hvalue,
      storageClass, hclass, ⟨⟩⟩
    exact ⟨type, number, s, name, value, storageClass, htype, hfunction, hnumber, hs, hname,
      hvalue, hclass, rfl⟩
  · rintro ⟨type, number, s, name, value, storageClass, htype, hfunction, hnumber, hs, hname,
      hvalue, hclass, rfl⟩
    exact ⟨type, htype, (), hfunction, number, hnumber, s, hs, name, hname, value, hvalue,
      storageClass, hclass, rfl⟩

variable (t : SymbolTable) (b : Bytes) (sections : SectionTable) (base : UInt64)
  (stripUnderscore : Bool)

/-- Whether the addresses of all functions fit in 64 bits. -/
def AddressesFit : Prop :=
  ∀ i name start, t.Describes b sections base i name start → start < UInt64.size

/-- Record number `i` is that of a function which is shown as `name` and starts at `start`. Labels
of sections start with a dot and are not shown, nor are names of which nothing is left. -/
structure Shows (i : Nat) (name : String) (start : Nat) : Prop where
  describes : ∃ written, t.Describes b sections base i written start ∧
    written.toList.head? ≠ some '.' ∧ name = FunctionSymbol.shownName stripUnderscore written
  name_ne : name ≠ ""

/-- The answer for an address is the function of record number `i`: of those that start closest
before the address or at it, the first one in the table. -/
structure NearestAt (address : UInt64) (i : Nat) (m : SymbolMatch) : Prop where
  shows : t.Shows b sections base stripUnderscore i m.name m.address.toNat
  displacement_eq : m.address.toNat + m.displacement.toNat = address.toNat
  nearest : ∀ j name start, t.Shows b sections base stripUnderscore j name start →
    start ≤ address.toNat → start < m.address.toNat ∨ start = m.address.toNat ∧ i ≤ j

variable {t b sections base stripUnderscore}

theorem Shows.isPrimary {i start : Nat} {name : String}
    (h : t.Shows b sections base stripUnderscore i name start) : t.IsPrimary b i := by
  obtain ⟨_, hdescribes, -⟩ := h.describes
  exact hdescribes.isPrimary

theorem Shows.name_unique {i start start' : Nat} {name name' : String}
    (h : t.Shows b sections base stripUnderscore i name start)
    (h' : t.Shows b sections base stripUnderscore i name' start') : name = name' := by
  obtain ⟨written, hdescribes, -, rfl⟩ := h.describes
  obtain ⟨written', hdescribes', -, rfl⟩ := h'.describes
  have hwritten := hdescribes.name_eq.symm.trans hdescribes'.name_eq
  rw [Option.some.inj hwritten]

theorem toNat_address {rva value : UInt32}
    (h : base.toNat + rva.toNat + value.toNat < UInt64.size) :
    (base + rva.toUInt64 + value.toUInt64).toNat = base.toNat + rva.toNat + value.toNat := by
  simp only [UInt64.toNat_add, UInt32.toNat_toUInt64, Nat.mod_add_mod]
  exact Nat.mod_eq_of_lt h

theorem describes_of_function? {i : Nat} {f : FunctionSymbol}
    (hfits : t.AddressesFit b sections base) (hi : t.IsPrimary b i)
    (h : function? (t.strings b) sections base (t.record b i) = some f) :
    t.Describes b sections base i f.name f.address.toNat := by
  obtain ⟨type, number, s, name, value, storageClass, htype, hfunction, hnumber, hs, hname, hvalue,
    -, rfl⟩ := function?_eq_some_iff.mp h
  have hdescribes : t.Describes b sections base i name
      (base.toNat + s.header.rva.toNat + value.toNat) :=
    ⟨hi, ⟨type, htype, hfunction⟩, hname, number, s, value, hnumber, hs, hvalue, rfl⟩
  rwa [← toNat_address (hfits _ _ _ hdescribes)] at hdescribes

theorem Describes.exists_function {i start : Nat} {name : String}
    (h : t.Describes b sections base i name start) (hcovered : t.IsCovered b)
    (hfits : t.AddressesFit b sections base) :
    ∃ f, function? (t.strings b) sections base (t.record b i) = some f ∧ f.name = name ∧
      f.address.toNat = start := by
  obtain ⟨number, s, value, hnumber, hs, hvalue, rfl⟩ := h.start_eq
  obtain ⟨type, htype, hfunction⟩ := h.isFunction
  obtain ⟨-, -, hfields⟩ := hcovered.record i h.isPrimary.lt_count
  obtain ⟨storageClass, hclass⟩ := hfields.storageClass
  refine ⟨_, function?_eq_some_iff.mpr ⟨type, number, s, name, value, storageClass, htype,
    hfunction, hnumber, hs, h.name_eq, hvalue, hclass, rfl⟩, rfl, ?_⟩
  exact toNat_address (hfits _ _ _ h)

/-- The answers that a record gives. -/
theorem shows_iff {i start : Nat} {name : String} (hcovered : t.IsCovered b)
    (hfits : t.AddressesFit b sections base) (address : UInt64) (hi : t.IsPrimary b i) :
    (t.Shows b sections base stripUnderscore i name start ∧ start ≤ address.toNat) ↔
      ∃ f m, function? (t.strings b) sections base (t.record b i) = some f ∧
        SymbolMatch.ofFunction? stripUnderscore address f = some m ∧ m.name = name ∧
          m.address.toNat = start := by
  constructor
  · rintro ⟨⟨⟨written, hdescribes, hdot, rfl⟩, hne⟩, hle⟩
    obtain ⟨f, hf, rfl, rfl⟩ := hdescribes.exists_function hcovered hfits
    refine ⟨f, ⟨_, f.address, address - f.address⟩, hf, ?_, rfl, rfl⟩
    exact SymbolMatch.ofFunction?_eq_some_iff.mpr
      ⟨UInt64.le_iff_toNat_le.mpr hle, rfl, rfl, hdot, hne, rfl⟩
  · rintro ⟨f, m, hf, hm, rfl, rfl⟩
    obtain ⟨hle, haddress, -, hdot, hne, hname⟩ := SymbolMatch.ofFunction?_eq_some_iff.mp hm
    rw [haddress]
    exact ⟨⟨⟨f.name, describes_of_function? hfits hi hf, hdot, hname⟩, hne⟩,
      UInt64.le_iff_toNat_le.mp hle⟩

/-- The functions that can be an answer are those that are shown and start early enough. -/
theorem exists_shows_iff {start : Nat} {name : String} (hcovered : t.IsCovered b)
    (hfits : t.AddressesFit b sections base) (address : UInt64) :
    (∃ i, t.Shows b sections base stripUnderscore i name start ∧ start ≤ address.toNat) ↔
      ∃ f ∈ t.functions b sections base, ∃ m,
        SymbolMatch.ofFunction? stripUnderscore address f = some m ∧ m.name = name ∧
          m.address.toNat = start := by
  obtain ⟨primaries, -, hmem, hfunctions⟩ := hcovered.functions
  simp only [hfunctions, List.mem_filterMap, hmem]
  constructor
  · rintro ⟨i, hi⟩
    have hprimary := hi.1.isPrimary
    obtain ⟨f, m, hf, hm⟩ := (shows_iff hcovered hfits address hprimary).mp hi
    exact ⟨f, ⟨i, hprimary, hf⟩, m, hm⟩
  · rintro ⟨f, ⟨i, hprimary, hf⟩, m, hm⟩
    exact ⟨i, (shows_iff hcovered hfits address hprimary).mpr ⟨f, m, hf, hm⟩⟩

theorem nearest?_functions_eq_none_iff (hcovered : t.IsCovered b)
    (hfits : t.AddressesFit b sections base) (address : UInt64) :
    SymbolMatch.nearest? stripUnderscore address (t.functions b sections base) = none ↔
      ¬ ∃ i name start, t.Shows b sections base stripUnderscore i name start ∧
        start ≤ address.toNat := by
  rw [SymbolMatch.nearest?_eq_none_iff]
  constructor
  · rintro hnone ⟨i, name, start, hi⟩
    obtain ⟨f, hf, m, hm, -⟩ := (exists_shows_iff hcovered hfits address).mp ⟨i, hi⟩
    rw [hnone f hf] at hm
    cases hm
  · intro hnone f hf
    by_contra hsome
    obtain ⟨m, hm⟩ := Option.ne_none_iff_exists'.mp hsome
    obtain ⟨i, hi⟩ := (exists_shows_iff hcovered hfits address).mpr ⟨f, hf, m, hm, rfl, rfl⟩
    exact hnone ⟨i, _, _, hi⟩

theorem exists_nearestAt (hcovered : t.IsCovered b) (hfits : t.AddressesFit b sections base)
    {address : UInt64} {m : SymbolMatch}
    (h : SymbolMatch.nearest? stripUnderscore address (t.functions b sections base) = some m) :
    ∃ i, t.NearestAt b sections base stripUnderscore address i m := by
  obtain ⟨primaries, hsorted, hmem, hfunctions⟩ := hcovered.functions
  rw [hfunctions] at h
  obtain ⟨before, f, after, hsplit, hm, hbefore, hafter⟩ := SymbolMatch.exists_of_nearest? h
  -- The function is that of one of the primary records, which are in the order of the table.
  obtain ⟨first, rest, rfl, rfl, hrest⟩ := List.filterMap_eq_append_iff.mp hsplit
  obtain ⟨skipped, i, last, rfl, hskipped, hf, rfl⟩ := List.filterMap_eq_cons_iff.mp hrest
  have hi : t.IsPrimary b i := (hmem i).mp (by simp)
  have hsum := SymbolMatch.displacement_of_ofFunction? hm
  refine ⟨i, ((shows_iff hcovered hfits address hi).mpr ⟨f, m, hf, hm, rfl, rfl⟩).1, hsum, ?_⟩
  intro j name start hshows hle
  have hj := hshows.isPrimary
  obtain ⟨g, found, hg, hfound, -, rfl⟩ := (shows_iff hcovered hfits address hj).mp ⟨hshows, hle⟩
  have hsum' := SymbolMatch.displacement_of_ofFunction? hfound
  have hplace : j ∈ first ∨ j ∈ skipped ∨ j = i ∨ j ∈ last := by simpa using (hmem j).mpr hj
  obtain hearlier | hskip | rfl | hlater := hplace
  · have hlt := hbefore g (List.mem_filterMap.mpr ⟨j, hearlier, hg⟩) found hfound
    rw [UInt64.lt_iff_toNat_lt] at hlt
    omega
  · rw [hskipped j hskip] at hg
    cases hg
  · obtain rfl := Option.some.inj (hf.symm.trans hg)
    obtain rfl := Option.some.inj (hm.symm.trans hfound)
    exact .inr ⟨rfl, Nat.le_refl j⟩
  · have hlt := hafter g (List.mem_filterMap.mpr ⟨j, hlater, hg⟩) found hfound
    rw [UInt64.le_iff_toNat_le] at hlt
    have hij : i < j := by
      have hlast := (List.pairwise_append.mp (List.pairwise_append.mp hsorted).2.1).2.1
      exact List.rel_of_pairwise_cons hlast hlater
    omega

/-- There is only one answer. -/
theorem NearestAt.unique {address : UInt64} {i j : Nat} {m m' : SymbolMatch}
    (h : t.NearestAt b sections base stripUnderscore address i m)
    (h' : t.NearestAt b sections base stripUnderscore address j m') : m = m' := by
  have hsum := h.displacement_eq
  have hsum' := h'.displacement_eq
  have hforth := h.nearest _ _ _ h'.shows (by omega)
  have hback := h'.nearest _ _ _ h.shows (by omega)
  have haddress : m.address = m'.address := UInt64.toNat_inj.mp (by omega)
  have hdisplacement : m.displacement = m'.displacement := by
    apply UInt64.toNat_inj.mp
    rw [haddress] at hsum
    omega
  obtain rfl : i = j := by omega
  have hname := h.shows.name_unique h'.shows
  cases m
  simp_all

/-- As long as no function starts in between, the answer for a later address is the same one,
further away. -/
theorem NearestAt.later {address k : UInt64} {i : Nat} {m : SymbolMatch}
    (h : t.NearestAt b sections base stripUnderscore address i m)
    (hk : address.toNat + k.toNat < UInt64.size)
    (hnone : ∀ j name start, t.Shows b sections base stripUnderscore j name start →
      start ≤ address.toNat ∨ address.toNat + k.toNat < start) :
    t.NearestAt b sections base stripUnderscore (address + k) i
      { m with displacement := m.displacement + k } := by
  have hsize : UInt64.size = 2 ^ 64 := rfl
  have hsum := h.displacement_eq
  have haddress : (address + k).toNat = address.toNat + k.toNat := by
    rw [UInt64.toNat_add, Nat.mod_eq_of_lt hk]
  have hdisplacement : (m.displacement + k).toNat = m.displacement.toNat + k.toNat := by
    rw [UInt64.toNat_add, Nat.mod_eq_of_lt (by omega)]
  refine ⟨h.shows, ?_, ?_⟩
  · show m.address.toNat + (m.displacement + k).toNat = (address + k).toNat
    omega
  · intro j name start hshows hle
    obtain hbefore | hafter := hnone j name start hshows
    · exact h.nearest j name start hshows hbefore
    · omega

/-- As long as no function starts in between, a later address has the same answer. -/
theorem nearest?_functions_later (hcovered : t.IsCovered b)
    (hfits : t.AddressesFit b sections base) {address k : UInt64}
    (hk : address.toNat + k.toNat < UInt64.size)
    (hnone : ∀ i name start, t.Shows b sections base stripUnderscore i name start →
      start ≤ address.toNat ∨ address.toNat + k.toNat < start) :
    SymbolMatch.nearest? stripUnderscore (address + k) (t.functions b sections base) =
      (SymbolMatch.nearest? stripUnderscore address (t.functions b sections base)).map
        fun m => { m with displacement := m.displacement + k } := by
  have haddress : (address + k).toNat = address.toNat + k.toNat := by
    rw [UInt64.toNat_add, Nat.mod_eq_of_lt hk]
  cases hm : SymbolMatch.nearest? stripUnderscore address (t.functions b sections base) with
  | none =>
    rw [nearest?_functions_eq_none_iff hcovered hfits] at hm
    rw [Option.map_none, nearest?_functions_eq_none_iff hcovered hfits]
    rintro ⟨i, name, start, hi, hle⟩
    obtain hbefore | hafter := hnone i name start hi
    · exact hm ⟨i, name, start, hi, hbefore⟩
    · omega
  | some m =>
    obtain ⟨i, hi⟩ := exists_nearestAt hcovered hfits hm
    have hlater := hi.later hk hnone
    have hsome : SymbolMatch.nearest? stripUnderscore (address + k)
        (t.functions b sections base) ≠ none := by
      rw [Ne, nearest?_functions_eq_none_iff hcovered hfits, not_not]
      have hsum := hi.displacement_eq
      exact ⟨i, m.name, _, hi.shows, by omega⟩
    obtain ⟨m', hm'⟩ := Option.ne_none_iff_exists'.mp hsome
    obtain ⟨j, hj⟩ := exists_nearestAt hcovered hfits hm'
    rw [hm', hj.unique hlater, Option.map_some]

theorem isCovered_of_locate {file : FileHeader} {maxSymbols : Nat}
    (h : locate b file maxSymbols = .ok (some t)) : t.IsCovered b := by
  obtain ⟨-, hnone⟩ | ⟨t', ht, hlocated⟩ := locatedBy_of_locate h
  · cases hnone
  · obtain rfl := Option.some.inj ht
    exact hlocated.isCovered

/-- Of a located table whose addresses fit, a query has no answer if no function that is shown
starts before it or at it. Otherwise the answer is the one that starts last, and of several the
first in the table, with its distance from the query. Up to the next function the same answer is
given, at a distance that grows with the address. -/
theorem nearest?_functions {file : FileHeader} {maxSymbols : Nat}
    (hlocate : locate b file maxSymbols = .ok (some t)) (hfits : t.AddressesFit b sections base)
    (stripUnderscore : Bool) (address : UInt64) :
    (SymbolMatch.nearest? stripUnderscore address (t.functions b sections base) = none ↔
      ¬ ∃ i name start, t.Shows b sections base stripUnderscore i name start ∧
        start ≤ address.toNat) ∧
    (∀ m, SymbolMatch.nearest? stripUnderscore address (t.functions b sections base) = some m →
      ∃ i, t.NearestAt b sections base stripUnderscore address i m) ∧
    ∀ k : UInt64, address.toNat + k.toNat < UInt64.size →
      (¬ ∃ i name start, t.Shows b sections base stripUnderscore i name start ∧
        address.toNat < start ∧ start ≤ address.toNat + k.toNat) →
      SymbolMatch.nearest? stripUnderscore (address + k) (t.functions b sections base) =
        (SymbolMatch.nearest? stripUnderscore address (t.functions b sections base)).map
          fun m => { m with displacement := m.displacement + k } := by
  have hcovered := isCovered_of_locate hlocate
  refine ⟨nearest?_functions_eq_none_iff hcovered hfits address,
    fun m hm => exists_nearestAt hcovered hfits hm, fun k hk hbetween => ?_⟩
  refine nearest?_functions_later hcovered hfits hk fun i name start hi => ?_
  by_contra hstart
  exact hbetween ⟨i, name, start, hi, by omega⟩

/-- A base that leaves room for a section's address and a place in it lets all addresses fit. -/
theorem addressesFit_of_base_le (h : base.toNat + 2 ^ 33 ≤ 2 ^ 64) :
    t.AddressesFit b sections base := by
  intro i name start hi
  obtain ⟨number, s, value, -, -, -, rfl⟩ := hi.start_eq
  have hrva := s.header.rva.toNat_lt
  have hvalue := value.toNat_lt
  have hsize : UInt64.size = 2 ^ 64 := rfl
  omega

/-- A function record of the first section. -/
def functionRecord (name : String) (value auxiliaries : Nat) : List UInt8 :=
  Text.field name ++ Bytes.littleEndian 4 value ++ [1, 0, 0x20, 0, 2, .ofNat auxiliaries]

/-- Two functions at one address, a label and a bare underscore behind them, and a further function.
The first function has a record that continues it. -/
def twoAtOneAddress : Bytes :=
  ⟨⟨[0] ++ functionRecord "_main" 0x10 1 ++ functionRecord "_hidden" 0x14 0 ++
    functionRecord "_start" 0x10 0 ++ functionRecord ".text" 0x18 0 ++
    functionRecord "_" 0x1C 0 ++ functionRecord "_exit" 0x200 0 ++ Bytes.littleEndian 4 4⟩⟩

def twoAtOneAddressHeader : FileHeader :=
  { machine := .i386, sectionCount := 1, timestamp := 0, symbolsAt := 1, symbolCount := 6
    optionalHeaderSize := 0, characteristics := 0 }

def textSection : SectionTable :=
  .ofList (Section.ofHeaders [⟨.empty, 0x1000, 0x1000, 0, 0, 0⟩] none .file) .file

def twoAtOneAddressTable : SymbolTable :=
  { offset := 1, count := 6, stringsStart := 109, stringsStop := 113 }

theorem twoAtOneAddress_nearest :
    let functions := twoAtOneAddressTable.functions twoAtOneAddress textSection 0x400000
    locate twoAtOneAddress twoAtOneAddressHeader 9 = .ok (some twoAtOneAddressTable) ∧
      SymbolMatch.nearest? true 0x401014 functions = some ⟨"main", 0x401010, 4⟩ ∧
      SymbolMatch.nearest? true (0x401014 + 0x1EB) functions = some ⟨"main", 0x401010, 0x1EF⟩ := by
  have hlocate : locate twoAtOneAddress twoAtOneAddressHeader 9 =
      .ok (some twoAtOneAddressTable) := by decide +kernel
  have hfits : twoAtOneAddressTable.AddressesFit twoAtOneAddress textSection 0x400000 :=
    addressesFit_of_base_le (by decide)
  have hfirst : SymbolMatch.nearest? true 0x401014
      (twoAtOneAddressTable.functions twoAtOneAddress textSection 0x400000) =
        some ⟨"main", 0x401010, 4⟩ := by
    decide +kernel
  have hbetween : ∀ f ∈ twoAtOneAddressTable.functions twoAtOneAddress textSection 0x400000,
      ∀ m ∈ SymbolMatch.ofFunction? true (0x401014 + 0x1EB) f, m.address ≤ 0x401014 := by
    decide +kernel
  obtain ⟨-, -, hlater⟩ := nearest?_functions hlocate hfits true 0x401014
  refine ⟨hlocate, hfirst, ?_⟩
  rw [hlater 0x1EB (by decide), hfirst]
  · rfl
  · rintro ⟨i, name, start, hshows, hlt, hle⟩
    have hsum : (0x401014 + 0x1EB : UInt64).toNat =
        (0x401014 : UInt64).toNat + (0x1EB : UInt64).toNat := by decide
    rw [← hsum] at hle
    obtain ⟨f, hf, m, hm, -, rfl⟩ :=
      (exists_shows_iff (isCovered_of_locate hlocate) hfits _).mp ⟨i, hshows, hle⟩
    exact absurd (UInt64.le_iff_toNat_le.mp (hbetween f hf m hm)) (Nat.not_le.mpr hlt)

end SymbolTable

end Postmortem
