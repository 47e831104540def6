import Postmortem.Image.Export
import Postmortem.Proofs.Image.Written

/-!
# Reads of bytes that were copied

The same bytes may be at one place in one buffer and at another place in another buffer. Whatever is
read of them alone is the same in both: numbers, texts up to their zero byte, and the export
directory with its tables, as long as both buffers are read where the bytes are.
-/
namespace Postmortem

/-- Whether the `n` bytes of `a` from `i` on are there and are those of `b` from `j` on. -/
def Bytes.Copied (a : Bytes) (i : Nat) (b : Bytes) (j n : Nat) : Prop :=
  ∀ k < n, ∃ x, a[i + k]? = some x ∧ b[j + k]? = some x

namespace Bytes.Copied

variable {a b : Bytes} {i j n k m : Nat}

theorem part (h : a.Copied i b j n) (hkm : k + m ≤ n) : a.Copied (i + k) b (j + k) m := by
  intro l hl
  rw [Nat.add_assoc, Nat.add_assoc]
  exact h (k + l) (by omega)

theorem mono (h : a.Copied i b j n) (hm : m ≤ n) : a.Copied i b j m :=
  fun k hk => h k (Nat.lt_of_lt_of_le hk hm)

theorem symm (h : a.Copied i b j n) : b.Copied j a i n := by
  intro k hk
  obtain ⟨x, ha, hb⟩ := h k hk
  exact ⟨x, hb, ha⟩

theorem getElem?_eq (h : a.Copied i b j n) (hk : k < n) : a[i + k]? = b[j + k]? := by
  obtain ⟨x, ha, hb⟩ := h k hk
  rw [ha, hb]

theorem le_size (h : a.Copied i b j n) (hn : 0 < n) : i + n ≤ a.size := by
  obtain ⟨x, ha, _⟩ := h (n - 1) (by omega)
  obtain ⟨hlt, _⟩ := getElem?_eq_some_iff.mp ha
  change i + (n - 1) < a.size at hlt
  omega

theorem number? (h : a.Copied i b j n) : ∃ v, a.number? i n = some v ∧ b.number? j n = some v := by
  induction n generalizing i j with
  | zero => exact ⟨0, rfl, rfl⟩
  | succ n ih =>
    obtain ⟨low, ha, hb⟩ := h 0 (by omega)
    obtain ⟨high, hhigha, hhighb⟩ := ih (h.part (k := 1) (by omega))
    simp only [Nat.add_zero] at ha hb
    exact ⟨low.toNat + 256 * high, by simp [Bytes.number?, ha, hhigha],
      by simp [Bytes.number?, hb, hhighb]⟩

theorem u16? (h : a.Copied i b j n) (hk : k + 2 ≤ n) :
    ∃ v, a.u16? (i + k) = some v ∧ b.u16? (j + k) = some v := by
  obtain ⟨v, ha, hb⟩ := (h.part hk).number?
  exact ⟨.ofNat v, by rw [Bytes.u16?, ha, Option.map_some], by rw [Bytes.u16?, hb, Option.map_some]⟩

theorem u32? (h : a.Copied i b j n) (hk : k + 4 ≤ n) :
    ∃ v, a.u32? (i + k) = some v ∧ b.u32? (j + k) = some v := by
  obtain ⟨v, ha, hb⟩ := (h.part hk).number?
  exact ⟨.ofNat v, by rw [Bytes.u32?, ha, Option.map_some], by rw [Bytes.u32?, hb, Option.map_some]⟩

theorem extract_eq (h : a.Copied i b j n) (hm : m ≤ n) :
    a.extract i (i + m) = b.extract j (j + m) := by
  obtain rfl | hpos := Nat.eq_zero_or_pos m
  · have hempty (c : Bytes) (start : Nat) : c.extract start (start + 0) = .empty :=
      ByteArray.extract_eq_empty_iff.mpr (by omega)
    rw [hempty, hempty]
  have ha := (h.mono hm).le_size hpos
  have hb := (h.mono hm).symm.le_size hpos
  apply ByteArray.ext_getElem
  · rw [ByteArray.size_extract, ByteArray.size_extract]
    omega
  · intro k hk hk'
    rw [ByteArray.size_extract] at hk
    have hget := h.getElem?_eq (k := k) (by omega)
    rw [getElem?_pos a (i + k) (by omega), getElem?_pos b (j + k) (by omega)] at hget
    rw [ByteArray.getElem_extract, ByteArray.getElem_extract]
    exact Option.some.inj hget

/-- A text that was copied with its zero byte is the same at both places. -/
theorem text?_eq (h : a.Copied i b j (n + 1)) (hzero : a[i + n]? = some 0) (limit : Nat) :
    a.text? i limit = b.text? j limit := by
  -- The first zero byte, which may come before the one that is given.
  have hexists : ∃ k, a[i + k]? = some 0 := ⟨n, hzero⟩
  obtain ⟨k, hk, hfirst⟩ : ∃ k, a[i + k]? = some 0 ∧ ∀ l < k, a[i + l]? ≠ some 0 :=
    ⟨Nat.find hexists, Nat.find_spec hexists, fun l hl => Nat.find_min hexists hl⟩
  have hkn : k ≤ n := by
    by_contra hlt
    exact hfirst n (by omega) hzero
  have hasize := h.le_size (Nat.succ_pos n)
  have hbsize := h.symm.le_size (Nat.succ_pos n)
  have hindex {x : Bytes} {start : Nat} (hcopied : ∀ l ≤ n, x[start + l]? = a[i + l]?)
      (hsize : start + (n + 1) ≤ x.size) :
      x.zeroIndex start (min (start + limit) x.size) = start + min k limit := by
    apply zeroIndex_eq (by omega) (by omega)
    · intro l hl hlt hat
      obtain ⟨l, rfl⟩ := Nat.exists_eq_add_of_le hl
      rw [hcopied l (by omega)] at hat
      exact hfirst l (by omega) hat
    · obtain hlt | hle := Nat.lt_or_ge limit k
      · left
        omega
      · rw [Nat.min_eq_left hle, hcopied k hkn]
        exact .inr hk
  rw [Bytes.text?, Bytes.text?, if_pos (by omega), if_pos (by omega),
    hindex (fun _ _ => rfl) hasize,
    hindex (fun l hl => (h.getElem?_eq (Nat.lt_succ_of_le hl)).symm) hbsize,
    h.extract_eq (by omega)]

end Bytes.Copied

namespace ExportTable

variable {file memory : Bytes} {i j n : Nat}

theorem Directory.read_copied (h : file.Copied i memory j Directory.size) :
    ∃ d, read file i = .ok d ∧ read memory j = .ok d := by
  have hfile := h.le_size (by decide)
  have hmemory := h.symm.le_size (by decide)
  have hfilecap := cappedEnd_le i size
  have hmemorycap := cappedEnd_le j size
  obtain ⟨nameRva, hname, hname'⟩ := h.u32? (k := 12) (by decide)
  obtain ⟨ordinalBase, hbase, hbase'⟩ := h.u32? (k := 16) (by decide)
  obtain ⟨functionCount, hfunctions, hfunctions'⟩ := h.u32? (k := 20) (by decide)
  obtain ⟨nameCount, hnames, hnames'⟩ := h.u32? (k := 24) (by decide)
  obtain ⟨functionsRva, hfunctionsAt, hfunctionsAt'⟩ := h.u32? (k := 28) (by decide)
  obtain ⟨namesRva, hnamesAt, hnamesAt'⟩ := h.u32? (k := 32) (by decide)
  obtain ⟨ordinalsRva, hordinalsAt, hordinalsAt'⟩ := h.u32? (k := 36) (by decide)
  refine ⟨⟨nameRva, ordinalBase, functionCount, nameCount, functionsRva, namesRva, ordinalsRva⟩,
    ?_, ?_⟩
  · unfold read
    rw [if_neg (by omega)]
    simp only [hname, hbase, hfunctions, hnames, hfunctionsAt, hnamesAt, hordinalsAt]
    rfl
  · unfold read
    rw [if_neg (by omega)]
    simp only [hname', hbase', hfunctions', hnames', hfunctionsAt', hnamesAt', hordinalsAt']
    rfl

theorem readAddresses_copied (h : file.Copied i memory j (4 * n)) :
    readAddresses file i n = readAddresses memory j n := by
  induction n generalizing i j with
  | zero => rfl
  | succ n ih =>
    obtain ⟨rva, hfile, hmemory⟩ := h.u32? (k := 0) (by omega)
    rw [Nat.add_zero] at hfile hmemory
    rw [readAddresses, readAddresses, hfile, hmemory]
    simp only [ih (h.part (k := 4) (by omega))]

theorem mem_readAddresses {b : Bytes} {rva : UInt32} (h : rva ∈ readAddresses b i n) :
    ∃ k < n, b.u32? (i + 4 * k) = some rva := by
  induction n generalizing i with
  | zero => cases h
  | succ n ih =>
    rw [readAddresses] at h
    cases hfirst : b.u32? i with
    | none =>
      rw [hfirst] at h
      cases h
    | some first =>
      rw [hfirst] at h
      obtain rfl | hrest := List.mem_cons.mp h
      · exact ⟨0, Nat.succ_pos n, hfirst⟩
      · obtain ⟨k, hk, hat⟩ := ih hrest
        refine ⟨k + 1, Nat.succ_lt_succ hk, ?_⟩
        rwa [Nat.mul_succ, Nat.add_comm (4 * k), ← Nat.add_assoc]

/-- Whether an address leads to a text in one buffer that is the text at that address in the
other. -/
def SameText (file : Bytes) (sections : SectionTable) (memory : Bytes) (rva : UInt32) : Prop :=
  ∃ offset, sections.offset? rva = some offset ∧
    ∀ limit, file.text? offset limit = memory.text? rva.toNat limit

variable {sections loaded : SectionTable}

theorem offset?_memory (h : loaded.layout = .memory) (rva : UInt32) :
    loaded.offset? rva = some rva.toNat := by
  rw [SectionTable.offset?, h]

theorem SameText.bind_eq (hloaded : loaded.layout = .memory) {rva : UInt32}
    (h : SameText file sections memory rva) (limit : Nat) :
    (sections.offset? rva).bind (file.text? · limit) =
      (loaded.offset? rva).bind (memory.text? · limit) := by
  obtain ⟨offset, hoffset, htext⟩ := h
  rw [hoffset, offset?_memory hloaded, Option.bind_some, Option.bind_some, htext]

theorem readNames_copied (hloaded : loaded.layout = .memory) {k l : Nat}
    (hnames : file.Copied i memory j (4 * n)) (hordinals : file.Copied k memory l (2 * n))
    (htexts : ∀ m < n, ∀ rva, file.u32? (i + 4 * m) = some rva →
      SameText file sections memory rva) :
    readNames file sections i k n = readNames memory loaded j l n := by
  induction n generalizing i j k l with
  | zero => rfl
  | succ n ih =>
    obtain ⟨rva, hfile, hmemory⟩ := hnames.u32? (k := 0) (by omega)
    obtain ⟨position, hfile', hmemory'⟩ := hordinals.u16? (k := 0) (by omega)
    have htext := (htexts 0 (Nat.succ_pos n) rva hfile).bind_eq hloaded nameLimit
    have hrest := ih (hnames.part (k := 4) (by omega)) (hordinals.part (k := 2) (by omega)) <| by
      intro m hm rva hrva
      apply htexts (m + 1) (by omega) rva
      rwa [Nat.mul_succ, Nat.add_comm (4 * m), ← Nat.add_assoc]
    rw [Nat.add_zero] at hfile hmemory hfile' hmemory'
    rw [readNames, readNames, hfile, hmemory, hfile', hmemory']
    simp only [Option.bind_eq_bind, htext, hrest]

theorem forwarder?_copied (hloaded : loaded.layout = .memory) {directory : DataDirectory}
    {rva : UInt32} (h : directory.contains rva = true → SameText file sections memory rva) :
    forwarder? file sections directory rva = forwarder? memory loaded directory rva := by
  unfold forwarder?
  by_cases hcontains : directory.contains rva = true
  · have htext := (h hcontains).bind_eq hloaded textLimit
    simp only [Option.bind_eq_bind, htext]
  · have hguard : (guard (directory.contains rva = true) : Option Unit) = none := if_neg hcontains
    rw [hguard]
    rfl

theorem entriesOf_copied (hloaded : loaded.layout = .memory) {directory : DataDirectory}
    {addresses : List UInt32}
    (h : ∀ rva ∈ addresses, directory.contains rva = true → SameText file sections memory rva)
    (ordinalBase : UInt32) (names : Std.HashMap Nat String) :
    entriesOf file sections directory ordinalBase names addresses =
      entriesOf memory loaded directory ordinalBase names addresses := by
  unfold entriesOf
  apply List.filterMap_congr
  rintro ⟨rva, position⟩ hmem
  simp only [forwarder?_copied hloaded (h rva (List.fst_mem_of_mem_zipIdx hmem))]

/-- Whether the tables of names are read. -/
def HasNames (d : Directory) (limit : UInt32) : Prop :=
  0 < min d.nameCount limit ∧ d.namesRva ≠ 0 ∧ d.ordinalsRva ≠ 0

instance (d : Directory) (limit : UInt32) : Decidable (HasNames d limit) :=
  inferInstanceAs (Decidable (_ ∧ _ ∧ _))

/-- What is read as the name of the library. -/
inductive ReadsLibrary (b : Bytes) (t : SectionTable) (d : Directory) : Option String → Prop
  | none (hrva : d.nameRva = 0) : ReadsLibrary b t d none
  | text {offset : Nat} (hrva : d.nameRva ≠ 0) (hoffset : t.offset? d.nameRva = some offset) :
    ReadsLibrary b t d (b.text? offset textLimit)

/-- What is read as the names of the functions. -/
inductive ReadsNames (b : Bytes) (t : SectionTable) (d : Directory) (limit : UInt32) :
    List (Nat × String) → Prop
  | none (hnames : ¬ HasNames d limit) : ReadsNames b t d limit []
  | tables {namesAt ordinalsAt : Nat} (hnames : HasNames d limit)
    (hnamesAt : t.offset? d.namesRva = some namesAt)
    (hordinalsAt : t.offset? d.ordinalsRva = some ordinalsAt) :
    ReadsNames b t d limit (readNames b t namesAt ordinalsAt (min d.nameCount limit).toNat)

section Read

variable {b : Bytes} {t : SectionTable} {directory : DataDirectory} {maxExports : Nat}

theorem read_of_not_present (h : directory.isPresent ≠ true) :
    read b t directory maxExports = .ok .empty := by
  unfold read
  rw [if_pos (by simpa using h)]
  rfl

/-- What is read when every address that is followed leads somewhere. -/
theorem read_eq_ok {d : Directory} {library : Option String} {names : List (Nat × String)}
    (hpresent : directory.isPresent = true) (hdirectory : t.offset? directory.rva = some i)
    (hread : Directory.read b i = .ok d) (hlibrary : ReadsLibrary b t d library)
    (hfunctions : t.offset? d.functionsRva = some j)
    (hnames : ReadsNames b t d (.ofNat maxExports) names) :
    read b t directory maxExports = .ok {
      libraryName := library
      ordinalBase := d.ordinalBase
      entries := ((entriesOf b t directory d.ordinalBase (.ofList names)
        (readAddresses b j (min d.functionCount (.ofNat maxExports)).toNat)).mergeSort
          fun e f => e.rva ≤ f.rva).toArray } := by
  unfold read
  simp only [hpresent, hdirectory, bind, Except.bind, pure, Except.pure, hread]
  rw [if_neg (by decide)]
  cases hlibrary with
  | none hnone =>
    rw [if_pos hnone, hfunctions]
    cases hnames with
    | none hno => exact if_neg hno
    | tables hyes hnamesAt hordinalsAt =>
      rw [hnamesAt, hordinalsAt]
      exact if_pos hyes
  | text hsome hat =>
    rw [if_neg hsome, hat, hfunctions]
    cases hnames with
    | none hno => exact if_neg hno
    | tables hyes hnamesAt hordinalsAt =>
      rw [hnamesAt, hordinalsAt]
      exact if_pos hyes

end Read

end ExportTable

end Postmortem
