import Postmortem.Proofs.Image.NearestFunction
import Postmortem.Proofs.Overflow.Headers

/-!
# Function addresses in checked arithmetic

A function starts at the base of its image plus the address of its section plus its place in the
section. The base is a number of 64 bits that an image is free to state, so the sum can be too
large. It wraps around then, to an address before the base; no other sum can.
-/
namespace Postmortem

/-- Whether the addresses of all functions in the symbol table were added without wrapping around:
none of them lies before the base. -/
def Image.FunctionsFit (image : Image) : Prop := ∀ f ∈ image.functions, image.base ≤ f.address

instance (image : Image) : Decidable image.FunctionsFit :=
  inferInstanceAs (Decidable (∀ f ∈ image.functions, image.base ≤ f.address))

namespace Checked

theorem toInt_sub_one {number : Int16} (h : 0 < number) :
    (number - 1).toInt = number.toInt - 1 := by
  have hlt := number.toInt_lt
  rw [Int16.lt_iff_toInt_lt] at h
  have hzero : Int16.toInt 0 = 0 := rfl
  have hone : Int16.toInt 1 = 1 := rfl
  rw [Int16.toInt_sub, hone, Int.bmod_eq_of_le (by omega) (by omega)]

theorem numbered_eq (t : SectionTable) (number : Int16) :
    numbered t number = some (t.numbered? number) := by
  unfold numbered SectionTable.numbered?
  by_cases h : number ≤ 0
  · rw [if_pos h, if_pos h]
    rfl
  · have hpos : 0 < number := Int16.not_le.mp h
    rw [if_neg h, if_neg h, pred16_of_pos hpos, Option.bind_eq_bind, Option.bind_some,
      toInt_sub_one hpos]
    rw [Int16.lt_iff_toInt_lt] at hpos
    have hzero : Int16.toInt 0 = 0 := rfl
    have hindex : ∀ s : Section, s.index = (number.toInt - 1).toNat ↔
        s.index + 1 = number.toInt.toNat := by
      intro s
      omega
    simp only [hindex]
    rfl

/-- A base and two numbers of 32 bits can be added if and only if the sum does not wrap around to
an address before the base. -/
theorem address_eq (base : UInt64) (rva value : UInt32) :
    address base rva value =
      if base ≤ base + rva.toUInt64 + value.toUInt64
      then some (base + rva.toUInt64 + value.toUInt64) else none := by
  have hbase := base.toNat_lt
  have hrva := rva.toNat_lt
  have hvalue := value.toNat_lt
  have hsize : UInt64.size = 2 ^ 64 := rfl
  simp only [address, add64, UInt64.le_iff_toNat_le, UInt64.toNat_add, UInt32.toNat_toUInt64, hsize]
  by_cases hfirst : base.toNat + rva.toNat < 2 ^ 64
  · rw [if_pos hfirst, Option.bind_eq_bind, Option.bind_some, UInt64.toNat_add,
      UInt32.toNat_toUInt64, Nat.mod_eq_of_lt hfirst]
    by_cases hsecond : base.toNat + rva.toNat + value.toNat < 2 ^ 64
    · rw [if_pos hsecond, Nat.mod_eq_of_lt hsecond, if_pos (by omega)]
    · rw [if_neg hsecond, if_neg (by omega)]
  · rw [if_neg hfirst, if_neg (by omega)]
    rfl

/-- The only results of a record that can be too large are the sums for the address. -/
theorem function_eq (strings : Bytes) (sections : SectionTable) (base : UInt64) (record : Bytes) :
    function strings sections base record =
      match SymbolTable.function? strings sections base record with
      | none => some none
      | some f => if base ≤ f.address then some (some f) else none := by
  unfold function SymbolTable.function?
  simp only [numbered_eq, Option.bind_eq_bind, Option.bind_some]
  cases record.u16? 14 with
  | none => rfl
  | some type =>
    cases htype : SymbolTable.isFunctionType type with
    | false => simp [htype]
    | true =>
      simp only [Option.bind_some, htype, Bool.not_true, guard_true]
      cases record.i16? 12 with
      | none => rfl
      | some sectionNumber =>
        simp only [Option.bind_some]
        cases sections.numbered? sectionNumber with
        | none => rfl
        | some s =>
          cases SymbolTable.recordName? strings record with
          | none => rfl
          | some name =>
            cases record.u32? 8 with
            | none => rfl
            | some value =>
              cases record.u8? 16 with
              | none => rfl
              | some storageClass =>
                simp only [Option.bind_some, address_eq, Bool.false_eq_true, if_false]
                by_cases hfits : base ≤ base + s.header.rva.toUInt64 + value.toUInt64
                · rw [if_pos hfits]
                  exact (if_pos hfits).symm
                · rw [if_neg hfits]
                  exact (if_neg hfits).symm

/-- The places of the records stay small. -/
theorem recordsFrom_eq {t : SymbolTable} (b : Bytes) (hoffset : t.offset < 2 ^ 32)
    (hcount : t.count < 2 ^ 32) (index : Nat) :
    recordsFrom t b index = some (t.recordsFrom b index) := by
  have hsize : ∀ i, i * SymbolTable.recordSize = i * 18 := fun _ => rfl
  induction index using SymbolTable.recordsFrom.induct t b with
  | case1 index hindex hnone =>
    rw [recordsFrom, SymbolTable.recordsFrom, if_pos hindex, if_pos hindex,
      offset_of_lt (by have := hsize index; omega), hnone, Option.bind_eq_bind, Option.bind_some,
      hnone]
    rfl
  | case2 index hindex record hslice ih =>
    have haux := ((record.u8? 17).getD 0).toNat_lt
    rw [recordsFrom, SymbolTable.recordsFrom, if_pos hindex, if_pos hindex,
      offset_of_lt (by have := hsize index; omega), hslice, Option.bind_eq_bind, Option.bind_some,
      hslice]
    simp only [Option.bind_eq_bind]
    rw [offset_of_lt (by omega), Option.bind_some, ih]
    rfl
  | case3 index hindex =>
    rw [recordsFrom, SymbolTable.recordsFrom, if_neg hindex, if_neg hindex]
    rfl

/-- The functions of some records are read unless one of their addresses is too large. -/
theorem functionsOf_eq (strings : Bytes) (sections : SectionTable) (base : UInt64)
    (records : List Bytes) :
    functionsOf strings sections base records =
      if ∀ f ∈ records.filterMap (SymbolTable.function? strings sections base), base ≤ f.address
      then some (records.filterMap (SymbolTable.function? strings sections base)) else none := by
  induction records with
  | nil => simp [functionsOf]
  | cons record rest ih =>
    rw [functionsOf, function_eq, ih, List.filterMap_cons]
    cases SymbolTable.function? strings sections base record with
    | none =>
      simp only [Option.bind_eq_bind, Option.bind_some, Option.toList_none, List.nil_append]
      exact Option.bind_fun_some _
    | some f =>
      simp only [List.forall_mem_cons]
      by_cases hf : base ≤ f.address
      · by_cases hrest : ∀ f ∈ rest.filterMap (SymbolTable.function? strings sections base),
            base ≤ f.address
        · rw [if_pos hf, if_pos hrest, if_pos ⟨hf, hrest⟩]
          rfl
        · rw [if_pos hf, if_neg hrest, if_neg fun h => hrest h.2]
          rfl
      · rw [if_neg hf]
        exact (if_neg fun h => hf h.1).symm

variable {image : Image} {data : Bytes} {options : ImageOptions}

theorem table_small (h : image.ReadFrom data options) {t : SymbolTable}
    (ht : image.symbolTable = some t) : t.offset < 2 ^ 32 ∧ t.count < 2 ^ 32 := by
  cases hlayout : options.layout with
  | memory =>
    rw [h.symbolTable_eq hlayout] at ht
    cases ht
  | file =>
    obtain ⟨_, hnone⟩ | ⟨t', hsome, hlocated⟩ :=
      SymbolTable.locatedBy_of_locate (h.locate_eq hlayout)
    · rw [hnone] at ht
      cases ht
    · obtain rfl := Option.some.inj (hsome.symm.trans ht)
      have hat := image.headers.file.symbolsAt.toNat_lt
      have hcount := image.headers.file.symbolCount.toNat_lt
      rw [hlocated.offset_eq, hlocated.count_eq]
      omega

/-- The functions of an image are read unless one of their addresses is too large. -/
theorem functions_eq (h : image.ReadFrom data options) :
    functions image = if image.FunctionsFit then some image.functions else none := by
  cases htable : image.symbolTable with
  | none =>
    have hnil : image.functions = [] := by rw [Image.functions, htable]
    have hfit : image.FunctionsFit := by
      intro f hf
      rw [hnil] at hf
      cases hf
    rw [functions, htable, if_pos hfit, hnil]
    rfl
  | some t =>
    obtain ⟨hoffset, hcount⟩ := table_small h htable
    have hsome : image.functions = (t.recordsFrom image.data 0).filterMap
        (SymbolTable.function? (t.strings image.data) image.sections image.base) := by
      rw [Image.functions, htable]
      rfl
    rw [functions, htable]
    simp only [recordsFrom_eq image.data hoffset hcount, Option.bind_eq_bind, Option.bind_some,
      functionsOf_eq, ← hsome]
    rfl

theorem closer_eq (stripUnderscore : Bool) (address : UInt64) (best : Option SymbolMatch)
    (f : FunctionSymbol) :
    closer stripUnderscore address best f =
      some ((SymbolMatch.ofFunction? stripUnderscore address f).elim best
        (SymbolMatch.closer best)) := by
  unfold closer SymbolMatch.ofFunction?
  by_cases hlt : address < f.address
  · rw [if_pos hlt, if_pos hlt]
    rfl
  · rw [if_neg hlt, if_neg hlt, sub64_of_le (UInt64.not_lt.mp hlt)]
    cases f.matchName? stripUnderscore with
    | none => rfl
    | some name => cases best <;> rfl

theorem nearest_eq (stripUnderscore : Bool) (address : UInt64) (found : List FunctionSymbol) :
    found.foldlM (closer stripUnderscore address) none =
      some (SymbolMatch.nearest? stripUnderscore address found) := by
  induction found using List.reverseRecOn with
  | nil => rfl
  | append_singleton before f ih =>
    rw [List.foldlM_append, ih, Option.bind_eq_bind, Option.bind_some, List.foldlM_cons, closer_eq,
      SymbolMatch.nearest?_concat]
    cases SymbolMatch.ofFunction? stripUnderscore address f <;> rfl

theorem nearestFunction_eq (h : image.ReadFrom data options) (address : UInt64) :
    nearestFunction image address =
      if image.FunctionsFit then some (image.nearestFunction? address) else none := by
  rw [nearestFunction, functions_eq h]
  by_cases hfit : image.FunctionsFit
  · rw [if_pos hfit, if_pos hfit]
    exact nearest_eq _ _ _
  · rw [if_neg hfit, if_neg hfit]
    rfl

end Checked

end Postmortem
