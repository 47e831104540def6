import Mathlib
import Postmortem.Proofs.Debug.FunctionSearch

/-!
# The rows of a line table and the lines that are found in it

A table keeps whole sequences of rows. Its files have a position each, by which the rows refer to
them; that every row does so is what lets a search that came to a row tell its file.
-/
namespace Postmortem.Debug

/-! ## Sequences -/

/-- Whether the row that follows is of the same sequence. -/
def EmittedRow.goesOn (row _next : EmittedRow) : Bool := !row.endSequence

/-- The sequences of rows: each goes up to and including the row that ends it. The last one may lack
its end. -/
def sequences (rows : List EmittedRow) : List (List EmittedRow) := rows.splitBy EmittedRow.goesOn

/-- Whether a sequence is of code that was not removed. -/
def isKept (sequence : List EmittedRow) : Bool := sequence.head?.any (·.address ≠ 0)

/-- The rows of all sequences but those that start at address zero. -/
def keptRows (rows : List EmittedRow) : List EmittedRow :=
  ((sequences rows).filter isKept).flatten

namespace LineTable

/-- The first row of a sequence decides what becomes of it. -/
theorem keepSequences_none_cons (row : EmittedRow) (rows : List EmittedRow) :
    keepSequences none (row :: rows) = keepSequences (some (row.address = 0)) (row :: rows) := rfl

/-- Further rows of a sequence follow it, and the row that ends it leaves the next one open. -/
theorem keepSequences_some_cons (dropped : Bool) (row : EmittedRow) (rows : List EmittedRow) :
    keepSequences (some dropped) (row :: rows) =
      (if dropped then [] else [row]) ++
        keepSequences (if row.endSequence then none else some dropped) rows := by
  cases dropped <;> simp [keepSequences]

/-- A sequence is kept or dropped as a whole. -/
theorem keepSequences_append (dropped : Bool) {sequence rest : List EmittedRow}
    (hne : sequence ≠ []) (hchain : sequence.IsChain fun a b => a.goesOn b = true)
    (hend : rest ≠ [] → (sequence.getLast hne).endSequence = true) :
    keepSequences (some dropped) (sequence ++ rest) =
      (if dropped then [] else sequence) ++ keepSequences none rest := by
  induction sequence with
  | nil => exact absurd rfl hne
  | cons row sequence ih =>
    rw [List.cons_append, keepSequences_some_cons]
    cases sequence with
    | nil =>
      rw [List.nil_append]
      congr 1
      cases rest with
      | nil => rfl
      | cons next rest =>
        have hrow : row.endSequence = true := hend (List.cons_ne_nil next rest)
        rw [if_pos hrow]
    | cons next sequence =>
      have hrow : row.endSequence = false := by simpa [EmittedRow.goesOn] using hchain.rel
      have hrest := ih (List.cons_ne_nil next sequence) hchain.tail fun hrest => by
        simpa using hend hrest
      rw [hrow, if_neg Bool.false_ne_true, hrest]
      cases dropped <;> rfl

/-- A list of sequences is gone through one after the other. -/
theorem keepSequences_flatten {qs : List (List EmittedRow)} (hne : [] ∉ qs)
    (hchain : ∀ q ∈ qs, q.IsChain fun a b => a.goesOn b = true)
    (hends : qs.IsChain fun a b => ∃ ha hb, (a.getLast ha).goesOn (b.head hb) = false) :
    keepSequences none qs.flatten = (qs.filter isKept).flatten := by
  induction qs with
  | nil => rfl
  | cons q qs ih =>
    obtain ⟨hq, hqs⟩ := not_or.mp (mt List.mem_cons.mpr hne)
    have hrest := ih hqs (fun p hp => hchain p (List.mem_cons_of_mem q hp)) hends.tail
    obtain ⟨first, q, rfl⟩ := List.exists_cons_of_ne_nil (Ne.symm hq)
    have hend (hflat : qs.flatten ≠ []) :
        ((first :: q).getLast (List.cons_ne_nil first q)).endSequence = true := by
      cases qs with
      | nil => exact absurd rfl hflat
      | cons p qs =>
        obtain ⟨_, _, h⟩ := hends.rel
        simpa [EmittedRow.goesOn] using h
    have hwhole := keepSequences_append (decide (first.address = 0)) (List.cons_ne_nil first q)
      (hchain _ List.mem_cons_self) hend
    rw [List.flatten_cons, List.filter_cons, List.cons_append, keepSequences_none_cons,
      ← List.cons_append, hwhole, hrest]
    by_cases hzero : first.address = 0 <;> simp [isKept, hzero]

theorem keepSequences_eq (rows : List EmittedRow) :
    keepSequences none rows = keptRows rows := by
  have h := keepSequences_flatten (List.nil_notMem_splitBy EmittedRow.goesOn rows)
    (fun _ => List.isChain_of_mem_splitBy) (List.isChain_getLast_head_splitBy _ rows)
  rwa [List.flatten_splitBy] at h

/-! ## Files -/

end LineTable

/-- The path of a row's file, or that of files that the program does not have. -/
def EmittedRow.path (row : EmittedRow) (s : DebugSections) (b : UnitBases) (h : LineHeader) :
    Except DebugError String :=
  match row.file with
  | some f => h.path s b f
  | none => .ok unknownName

namespace LineTable

variable {s : DebugSections} {b : UnitBases} {h : LineHeader}

/-- The files with a position are those of the rows seen so far. Each has the path that its index
had in the first of these rows. -/
structure FileList.Holds (l : FileList) (s : DebugSections) (b : UnitBases) (h : LineHeader)
    (seen : List EmittedRow) : Prop where
  known : ∀ row ∈ seen, ∃ p, l.positions[row.fileIndex]? = some p
  path : ∀ index p : Nat, l.positions[index]? = some p →
    ∃ first text, seen.find? (·.fileIndex = index) = some first ∧ first.path s b h = .ok text ∧
      l.files[p]? = some text
  injective : ∀ i j p : Nat, l.positions[i]? = some p → l.positions[j]? = some p → i = j

theorem FileList.holds_nil : FileList.Holds {} s b h [] := by
  refine ⟨by simp, fun index p hp => ?_, fun i j p hp => ?_⟩
  · simp at hp
  · simp at hp

theorem FileList.place_known {l : FileList} {row : EmittedRow} {p : Nat}
    (hp : l.positions[row.fileIndex]? = some p) : l.place s b h row = .ok (p, l) := by
  unfold place
  rw [hp]
  rfl

theorem FileList.place_new {l : FileList} {row : EmittedRow}
    (hnew : l.positions[row.fileIndex]? = none) :
    l.place s b h row = (row.path s b h).map fun text =>
      (l.files.size, ⟨l.positions.insert row.fileIndex l.files.size, l.files.push text⟩) := by
  unfold place EmittedRow.path
  rw [hnew]
  cases row.file with
  | none => rfl
  | some f =>
    show (h.path s b f >>= _) = (h.path s b f).map _
    cases h.path s b f <;> rfl

/-- Rows of a file that is known already change nothing. -/
theorem FileList.Holds.known_row {l : FileList} {seen : List EmittedRow} {row : EmittedRow}
    {p : Nat} (hl : l.Holds s b h seen) (hp : l.positions[row.fileIndex]? = some p) :
    l.Holds s b h (seen ++ [row]) where
  known other hother := by
    obtain hseen | hlast := List.mem_append.mp hother
    · exact hl.known other hseen
    · obtain rfl := List.mem_singleton.mp hlast
      exact ⟨p, hp⟩
  path index q hq := by
    obtain ⟨first, text, hfirst, htext, hfile⟩ := hl.path index q hq
    exact ⟨first, text, by simp [hfirst], htext, hfile⟩
  injective := hl.injective

theorem FileList.Holds.lt_size {l : FileList} {seen : List EmittedRow} {index p : Nat}
    (hl : l.Holds s b h seen) (hp : l.positions[index]? = some p) : p < l.files.size := by
  obtain ⟨_, _, _, _, hfile⟩ := hl.path index p hp
  exact (Array.getElem?_eq_some_iff.mp hfile).1

theorem FileList.Holds.find?_eq_none {l : FileList} {seen : List EmittedRow} {index : Nat}
    (hl : l.Holds s b h seen) (hnew : l.positions[index]? = none) :
    seen.find? (·.fileIndex = index) = none := by
  refine List.find?_eq_none.mpr fun row hrow hsame => ?_
  obtain rfl : row.fileIndex = index := by simpa using hsame
  obtain ⟨p, hp⟩ := hl.known row hrow
  simp [hnew] at hp

/-- The first row of a file adds it. -/
theorem FileList.Holds.new_row {l : FileList} {seen : List EmittedRow} {row : EmittedRow}
    {text : String} (hl : l.Holds s b h seen) (hnew : l.positions[row.fileIndex]? = none)
    (htext : row.path s b h = .ok text) :
    FileList.Holds ⟨l.positions.insert row.fileIndex l.files.size, l.files.push text⟩ s b h
      (seen ++ [row]) where
  known other hother := by
    by_cases hindex : row.fileIndex = other.fileIndex
    · exact ⟨l.files.size, by simp [hindex]⟩
    · obtain hseen | hlast := List.mem_append.mp hother
      · obtain ⟨p, hp⟩ := hl.known other hseen
        exact ⟨p, by simp [Std.HashMap.getElem?_insert, hindex, hp]⟩
      · obtain rfl := List.mem_singleton.mp hlast
        exact absurd rfl hindex
  path index q hq := by
    rw [Std.HashMap.getElem?_insert] at hq
    split at hq
    · next hindex =>
      obtain rfl : row.fileIndex = index := by simpa using hindex
      obtain rfl := Option.some.inj hq
      exact ⟨row, text, by simp [hl.find?_eq_none hnew], htext, by simp⟩
    · obtain ⟨first, text', hfirst, htext', hfile⟩ := hl.path index q hq
      have hlt := hl.lt_size hq
      refine ⟨first, text', by simp [hfirst], htext', ?_⟩
      rw [Array.getElem?_push, if_neg (by omega), hfile]
  injective i j q hi hj := by
    have hlt (k : Nat) (hk : l.positions[k]? = some l.files.size) : False :=
      absurd (hl.lt_size hk) (Nat.lt_irrefl _)
    rw [Std.HashMap.getElem?_insert] at hi hj
    split at hi <;> split at hj
    · next hi' hj' => exact (eq_of_beq hi').symm.trans (eq_of_beq hj')
    · rw [← Option.some.inj hi] at hj
      exact (hlt j hj).elim
    · rw [← Option.some.inj hj] at hi
      exact (hlt i hi).elim
    · exact hl.injective i j q hi hj

/-- A row that is placed is one more of the rows seen, and no file moves. -/
theorem FileList.place_of_ok {l l' : FileList} {seen : List EmittedRow} {row : EmittedRow} {p : Nat}
    (hl : l.Holds s b h seen) (hplace : l.place s b h row = .ok (p, l')) :
    l'.Holds s b h (seen ++ [row]) ∧ l'.positions[row.fileIndex]? = some p ∧
      ∀ i q : Nat, l.positions[i]? = some q → l'.positions[i]? = some q := by
  cases hp : l.positions[row.fileIndex]? with
  | some q =>
    rw [place_known hp] at hplace
    cases hplace
    exact ⟨hl.known_row hp, hp, fun _ _ hi => hi⟩
  | none =>
    rw [place_new hp] at hplace
    cases htext : row.path s b h with
    | error => simp [htext, Except.map] at hplace
    | ok text =>
      rw [htext] at hplace
      cases hplace
      refine ⟨hl.new_row hp htext, by simp, fun i q hi => ?_⟩
      rw [Std.HashMap.getElem?_insert, if_neg, hi]
      intro hsame
      rw [eq_of_beq hsame, hi] at hp
      cases hp

theorem FileList.exists_place {l : FileList} {row : EmittedRow}
    (hpath : l.positions[row.fileIndex]? = none → ∃ text, row.path s b h = .ok text) :
    ∃ p l', l.place s b h row = .ok (p, l') := by
  cases hp : l.positions[row.fileIndex]? with
  | some q => exact ⟨q, l, place_known hp⟩
  | none =>
    obtain ⟨text, htext⟩ := hpath hp
    rw [place_new hp, htext]
    exact ⟨_, _, rfl⟩

/-! ## The rows of a table -/

/-- A row of a table is what the program emitted, with the line cut to 32 bits. -/
structure Shows (row : LineRow) (emitted : EmittedRow) : Prop where
  address : row.address = emitted.address
  line : row.line = emitted.line % UInt32.size
  endSequence : row.endSequence = emitted.endSequence

/-- What holds of the files after all rows, when `seen` were placed before, tells where the file of
each row is. -/
theorem ofRows_of_ok {l : FileList} {seen rows : List EmittedRow} {t : LineTable}
    (hl : l.Holds s b h seen) (ht : ofRows s b h l rows = .ok t) :
    ∃ l' : FileList, l'.Holds s b h (seen ++ rows) ∧ l'.files = t.files ∧
      (∀ i q : Nat, l.positions[i]? = some q → l'.positions[i]? = some q) ∧
      List.Forall₂ (fun emitted row => Shows row emitted ∧
        l'.positions[emitted.fileIndex]? = some row.file) rows t.rows := by
  -- Each step moves its row to those seen, so the files and what was seen before vary.
  induction rows generalizing l seen t with
  | nil =>
    cases ht
    exact ⟨l, by simpa using hl, rfl, fun _ _ hi => hi, .nil⟩
  | cons row rows ih =>
    obtain ⟨⟨file, l₁⟩, hplace, ht⟩ := ok_of_bind ht
    obtain ⟨rest, hrest, ht⟩ := ok_of_bind ht
    obtain rfl := Except.ok.inj ht
    obtain ⟨hl₁, hfile, hkeep⟩ := FileList.place_of_ok hl hplace
    obtain ⟨l', hl', hfiles, hkeep', hrows⟩ := ih hl₁ hrest
    refine ⟨l', by simpa using hl', hfiles, fun i q hi => hkeep' i q (hkeep i q hi), ?_⟩
    exact .cons ⟨⟨rfl, rfl, rfl⟩, hkeep' _ _ hfile⟩ hrows

/-- The rows make a table when the path of every file can be read off its first row. -/
theorem exists_ofRows {l : FileList} {seen rows : List EmittedRow} (hl : l.Holds s b h seen)
    (hpaths : ∀ index first, (seen ++ rows).find? (·.fileIndex = index) = some first →
      ∃ text, first.path s b h = .ok text) :
    ∃ t, ofRows s b h l rows = .ok t := by
  induction rows generalizing l seen with
  | nil => exact ⟨_, rfl⟩
  | cons row rows ih =>
    have hplace : ∃ p l', l.place s b h row = .ok (p, l') := FileList.exists_place fun hnew =>
      hpaths row.fileIndex row (by simp [hl.find?_eq_none hnew])
    obtain ⟨p, l', hplace⟩ := hplace
    obtain ⟨t, ht⟩ := ih (FileList.place_of_ok hl hplace).1 (by simpa using hpaths)
    simp only [ofRows, hplace, ht, ok_bind]
    exact ⟨_, rfl⟩

/-- The table lists the given rows in their order. Rows share a position among the files if they
have the same file index, and the path there is that of the first of them. -/
structure Lists (t : LineTable) (s : DebugSections) (b : UnitBases) (h : LineHeader)
    (kept : List EmittedRow) : Prop where
  rows : List.Forall₂ (fun emitted row => Shows row emitted) kept t.rows
  shared : ∀ x ∈ kept.zip t.rows, ∀ y ∈ kept.zip t.rows,
    x.2.file = y.2.file ↔ x.1.fileIndex = y.1.fileIndex
  path : ∀ x ∈ kept.zip t.rows, ∃ first text,
    kept.find? (·.fileIndex = x.1.fileIndex) = some first ∧ first.path s b h = .ok text ∧
      t.files[x.2.file]? = some text

theorem lists_of_ok {rows : List EmittedRow} {t : LineTable} (ht : ofRows s b h {} rows = .ok t) :
    t.Lists s b h rows := by
  obtain ⟨l, hl, hfiles, _, hrows⟩ := ofRows_of_ok FileList.holds_nil ht
  have hposition (x : EmittedRow × LineRow) (hx : x ∈ rows.zip t.rows) :
      l.positions[x.1.fileIndex]? = some x.2.file :=
    ((List.forall₂_iff_zip.mp hrows).2 hx).2
  refine ⟨hrows.imp fun _ _ => And.left, fun x hx y hy => ⟨fun hsame => ?_, fun hsame => ?_⟩, ?_⟩
  · have hy' := hposition y hy
    rw [← hsame] at hy'
    exact hl.injective _ _ _ (hposition x hx) hy'
  · have hx' := hposition x hx
    rw [hsame, hposition y hy] at hx'
    exact (Option.some.inj hx').symm
  · intro x hx
    simpa [hfiles] using hl.path _ _ (hposition x hx)

/-- The table of a unit lists the rows of the sequences that are kept. -/
theorem ofUnit_lists {u : CompilationUnit} {h : LineHeader} {emitted : Array EmittedRow}
    (hu : u.lineHeader = some h) (hrows : h.rows = .ok emitted)
    (hpaths : ∀ index first, (keptRows emitted.toList).find? (·.fileIndex = index) = some first →
      ∃ text, first.path s u.bases h = .ok text) :
    ∃ t, ofUnit s u = .ok t ∧ t.Lists s u.bases h (keptRows emitted.toList) := by
  rw [← keepSequences_eq] at hpaths ⊢
  obtain ⟨t, ht⟩ := exists_ofRows FileList.holds_nil hpaths
  refine ⟨t, ?_, lists_of_ok ht⟩
  unfold ofUnit
  rw [hu]
  show (h.rows >>= _) = _
  rw [hrows, ok_bind, ht]

/-- The row of a table that was decoded has a file in it. -/
theorem exists_file_of_loadAt {start : Nat} {t : LineTable} {row : LineRow}
    (ht : loadAt s start = .ok t) (hrow : row ∈ t.rows) :
    ∃ file, t.files[row.file]? = some file := by
  obtain ⟨u, _, ht⟩ := ok_of_bind ht
  unfold ofUnit at ht
  split at ht
  · cases ht
    simp [empty] at hrow
  · next h _ =>
    obtain ⟨emitted, _, ht⟩ := ok_of_bind ht
    have hlists := lists_of_ok ht
    rw [← List.map_snd_zip hlists.rows.length_eq.ge] at hrow
    obtain ⟨x, hx, rfl⟩ := List.mem_map.mp hrow
    obtain ⟨_, file, _, _, hfile⟩ := hlists.path x hx
    exact ⟨file, hfile⟩

end LineTable

/-! ## The line at an address -/

/-- The row that is found starts at or before the address. -/
theorem LineRow.nearestAfter?_spec {address : Nat} {previous : Option LineRow}
    {rows : List LineRow} {row : LineRow} (h : nearestAfter? address previous rows = some row) :
    (row ∈ rows ∨ previous = some row) ∧ row.address ≤ address := by
  induction rows generalizing previous with
  | nil => cases h
  | cons next rows ih =>
    rw [nearestAfter?] at h
    split at h
    · exact (ih h).imp_left (Or.imp_left (List.mem_cons_of_mem next))
    · split at h
      · next p hp =>
        cases h
        obtain ⟨hprevious, hbetween⟩ := Option.filter_eq_some_iff.mp hp
        simp only [decide_eq_true_eq] at hbetween
        exact ⟨.inr hprevious, by omega⟩
      · split at h
        · obtain ⟨hmem | hnone, hle⟩ := ih h
          · exact ⟨.inl (List.mem_cons_of_mem next hmem), hle⟩
          · cases hnone
        · split at h
          · next haddress =>
            cases h
            exact ⟨.inl List.mem_cons_self, by omega⟩
          · obtain ⟨hmem | hsome, hle⟩ := ih h
            · exact ⟨.inl (List.mem_cons_of_mem next hmem), hle⟩
            · cases hsome
              exact ⟨.inl List.mem_cons_self, hle⟩

namespace DebugInfo

/-- What the search for the line at an address says. There is one only in a function, and it is that
of the nearest row of the table of the function's unit. -/
structure AnswersLine (d : DebugInfo) (address : Nat) : Prop where
  outside : d.function? address = .ok none → d.line? address = .ok none
  uncovered : ∀ f t, d.function? address = .ok (some f) →
    LineTable.loadAt d.sections f.unit = .ok t → LineRow.nearest? t.rows address = none →
      d.line? address = .ok none
  covered : ∀ f t row, d.function? address = .ok (some f) →
    LineTable.loadAt d.sections f.unit = .ok t → LineRow.nearest? t.rows address = some row →
      row.address ≤ address ∧ ∃ file, t.files[row.file]? = some file ∧
        d.line? address = .ok (some { file, line := row.line, address := row.address,
                                      displacement := address - row.address })
  only : ∀ m, d.line? address = .ok (some m) →
    ∃ f t row, d.function? address = .ok (some f) ∧
      LineTable.loadAt d.sections f.unit = .ok t ∧ LineRow.nearest? t.rows address = some row

variable {d : DebugInfo} {address : Nat}

theorem line?_of_function {f : FunctionMatch} {t : LineTable}
    (hf : d.function? address = .ok (some f)) (ht : LineTable.loadAt d.sections f.unit = .ok t) :
    d.line? address = .ok (t.find? address) := by
  show (d.function? address >>= _) = _
  rw [hf, ok_bind]
  show (LineTable.loadAt d.sections f.unit >>= _) = _
  rw [ht, ok_bind]
  rfl

theorem answersLine (d : DebugInfo) (address : Nat) : d.AnswersLine address where
  outside hnone := by
    show (d.function? address >>= _) = _
    rw [hnone, ok_bind]
    rfl
  uncovered f t hf ht hrow := by
    rw [line?_of_function hf ht, LineTable.find?, hrow]
    rfl
  covered f t row hf ht hrow := by
    obtain ⟨hmem | hnone, hle⟩ := LineRow.nearestAfter?_spec hrow
    · obtain ⟨file, hfile⟩ := LineTable.exists_file_of_loadAt ht hmem
      refine ⟨hle, file, hfile, ?_⟩
      rw [line?_of_function hf ht, LineTable.find?, hrow]
      simp [hfile]
    · cases hnone
  only m hm := by
    obtain ⟨found, hfound, hm⟩ := ok_of_bind hm
    split at hm
    · cases hm
    · next f =>
      obtain ⟨t, ht, hm⟩ := ok_of_bind hm
      obtain ⟨row, hrow, _⟩ := Option.bind_eq_some_iff.mp (Except.ok.inj hm)
      exact ⟨f, t, row, hfound, ht, hrow⟩

/-- The rows that a line program emits make the table of its unit, and by such tables the lines at
addresses are found. -/
theorem line?_ofRows (d : DebugInfo) {u : CompilationUnit} {h : LineHeader}
    {emitted : Array EmittedRow} (hu : u.lineHeader = some h) (hrows : h.rows = .ok emitted)
    (hpaths : ∀ index first, (keptRows emitted.toList).find? (·.fileIndex = index) = some first →
      ∃ text, first.path d.sections u.bases h = .ok text) :
    (∃ t, LineTable.ofUnit d.sections u = .ok t ∧
      t.Lists d.sections u.bases h (keptRows emitted.toList) ∧
      ∀ start, CompilationUnit.loadAt d.sections start = .ok u →
        LineTable.loadAt d.sections start = .ok t) ∧
      ∀ address, d.AnswersLine address := by
  obtain ⟨t, ht, hlists⟩ := LineTable.ofUnit_lists hu hrows hpaths
  refine ⟨⟨t, ht, hlists, fun start hstart => ?_⟩, d.answersLine⟩
  rw [LineTable.loadAt, hstart, ok_bind, ht]

end DebugInfo

/-! ## The lines of one function -/

namespace OneFunction

def file : FileEntry := ⟨.text ⟨#[0x66, 0x2e, 0x63]⟩, 0⟩

def emitted : Array EmittedRow :=
  #[⟨0, 2, 1, some file, false⟩, ⟨0, 2, 1, some file, true⟩,
    ⟨0x1000, 2, 1, some file, false⟩, ⟨0x1008, 3, 1, some file, false⟩,
    ⟨0x1010, 4, 1, some file, false⟩, ⟨0x1010, 4, 1, some file, true⟩]

theorem rows_lineHeader : lineHeader.rows = .ok emitted := by cbv

theorem keptRows_emitted : keptRows emitted.toList =
    [⟨0x1000, 2, 1, some file, false⟩, ⟨0x1008, 3, 1, some file, false⟩,
      ⟨0x1010, 4, 1, some file, false⟩, ⟨0x1010, 4, 1, some file, true⟩] := rfl

theorem path_file : lineHeader.path sections unit.bases file = .ok "f.c" := by cbv

def lineTable : LineTable where
  rows := [⟨0x1000, 2, 0, false⟩, ⟨0x1008, 3, 0, false⟩, ⟨0x1010, 4, 0, false⟩,
    ⟨0x1010, 4, 0, true⟩]
  files := #["f.c"]

theorem ofUnit_unit : LineTable.ofUnit sections unit = .ok lineTable := by
  show (lineHeader.rows >>= _) = _
  rw [rows_lineHeader, ok_bind, LineTable.keepSequences_eq, keptRows_emitted]
  simp [LineTable.ofRows, LineTable.FileList.place, path_file, ok_bind, lineTable, UInt32.size]

theorem path_first (index : Nat) (first : EmittedRow)
    (hfirst : (keptRows emitted.toList).find? (·.fileIndex = index) = some first) :
    ∃ text, first.path sections unit.bases lineHeader = .ok text := by
  have hmem : first ∈ keptRows emitted.toList := List.mem_of_find?_eq_some hfirst
  have hfile : first.file = some file := by
    rw [keptRows_emitted] at hmem
    simp only [List.mem_cons, List.not_mem_nil, or_false] at hmem
    obtain rfl | rfl | rfl | rfl := hmem <;> rfl
  refine ⟨"f.c", ?_⟩
  rw [EmittedRow.path, hfile]
  exact path_file

/-- An address between the second row and the third one has the line of the second. -/
theorem answers_line : debugInfo.line? 0x100a = .ok (some ⟨"f.c", 3, 0x1008, 2⟩) := by
  obtain ⟨⟨t, ht, _, hload⟩, hanswers⟩ := debugInfo.line?_ofRows rfl rows_lineHeader path_first
  obtain rfl : lineTable = t := Except.ok.inj (ofUnit_unit.symm.trans ht)
  obtain ⟨_, file, hfile, hline⟩ := (hanswers 0x100a).covered _ lineTable ⟨0x1008, 3, 0, false⟩
    function?_debugInfo (hload 0 loadAt_zero) rfl
  obtain rfl : "f.c" = file := Option.some.inj hfile
  exact hline

end OneFunction

end Postmortem.Debug
