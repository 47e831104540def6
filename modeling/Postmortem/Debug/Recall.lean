import Postmortem.Debug.Basic
import Postmortem.Memo

/-!
# Debug information that was decoded before

Units and line tables are decoded when a question leads to them, and kept. A search that loads units
from a memo gives the answer of the search that decodes each of them, because both are the same
search with two ways to load a unit that agree.
-/
namespace Postmortem.Debug

/-- The units and line tables of debug sections that were decoded so far, by where their units
start. -/
structure DecodedUnits (s : DebugSections) where
  units : Memo (CompilationUnit.loadAt s) := {}
  lines : Memo (LineTable.loadAt s) := {}

namespace DecodedUnits

variable {s : DebugSections}

/-- The unit at an offset, which is kept. -/
def unit (s : DebugSections) (start : Nat) :
    Recall (DecodedUnits s) (CompilationUnit.loadAt s start) :=
  Memo.recallValue (·.units) (fun kept units => { kept with units }) start (.work _ start)

/-- The line table of the unit at an offset, which is kept like the unit itself. -/
def lineTable (s : DebugSections) (start : Nat) :
    Recall (DecodedUnits s) (LineTable.loadAt s start) :=
  Memo.recallValue (·.lines) (fun kept lines => { kept with lines }) start <|
    (unit s start).bind (f := (· >>= LineTable.ofUnit s)) fun
      | .ok u => .work (LineTable.ofUnit s) u
      | .error x => .pure (Except.error x)

end DecodedUnits

/-- Decodes with what was decoded before. What a failure had decoded by then is kept as well. -/
abbrev Remembering (s : DebugSections) := ExceptT DebugError (StateM (DecodedUnits s))

namespace Remembering

variable {s : DebugSections} {α β : Type}

/-- `x` gives what `y` gives, whatever is kept. -/
def Agrees (x : Remembering s α) (y : Except DebugError α) : Prop :=
  ∀ kept, (x.run.run kept).1 = y

/-- A recollection as a step of a search. -/
def ofRecall {a : Except DebugError α} (x : Recall (DecodedUnits s) a) : Remembering s α :=
  ExceptT.mk x.run

/-- A search as a recollection of the answer it agrees with. -/
def toRecall (x : Remembering s α) {a : Except DebugError α} (h : x.Agrees a) :
    Recall (DecodedUnits s) a :=
  ⟨fun kept => x.run.run kept, h⟩

theorem agrees_ofRecall {a : Except DebugError α} (x : Recall (DecodedUnits s) a) :
    (ofRecall x).Agrees a :=
  x.run_fst

theorem agrees_pure (a : α) : Agrees (s := s) (pure a) (pure a) := fun _ => rfl

theorem agrees_lift (y : Except DebugError α) : Agrees (s := s) (liftM y) (liftM y) := fun _ => rfl

theorem Agrees.bind {x : Remembering s α} {y : Except DebugError α} {f : α → Remembering s β}
    {g : α → Except DebugError β} (h : x.Agrees y) (hf : ∀ a, (f a).Agrees (g a)) :
    (x >>= f).Agrees (y >>= g) := by
  intro kept
  have hrun : ((x >>= f).run.run kept) = match x.run.run kept with
      | (.ok a, kept) => (f a).run.run kept
      | (.error e, kept) => (.error e, kept) := by
    show (ExceptT.bindCont f (x.run.run kept).1).run (x.run.run kept).2 = _
    rcases x.run.run kept with ⟨_ | a, kept⟩ <;> rfl
  rw [hrun, ← h kept]
  rcases x.run.run kept with ⟨e | a, kept⟩
  · rfl
  · exact hf a kept

variable {load : Nat → Remembering s CompilationUnit}
  {load' : Nat → Except DebugError CompilationUnit}

theorem locate?_agrees (hload : ∀ start, (load start).Agrees (load' start)) (offset : Nat) :
    (Entry.locate? load s offset).Agrees (Entry.locate? load' s offset) := by
  unfold Entry.locate?
  dsimp only
  split
  · exact .bind (hload _) fun u => .bind (agrees_lift _) fun entry => agrees_pure _
  · split
    · exact agrees_lift _
    · exact agrees_pure _

theorem referent?_agrees (hload : ∀ start, (load start).Agrees (load' start)) (entry : Entry)
    (u : CompilationUnit) (names : List Nat) :
    (entry.referent? load s u names).Agrees (entry.referent? load' s u names) := by
  induction names with
  | nil => exact agrees_pure _
  | cons name names ih =>
    refine .bind (agrees_lift _) fun value => ?_
    split
    · exact .bind (agrees_lift _) fun entry => agrees_pure _
    · exact locate?_agrees hload _
    · exact ih

theorem name?_agrees (hload : ∀ start, (load start).Agrees (load' start)) (references : Nat)
    (u : CompilationUnit) (entry : Entry) :
    (Entry.name? load s references u entry).Agrees (Entry.name? load' s references u entry) := by
  induction references generalizing u entry with
  | zero =>
    unfold Entry.name?
    refine .bind (agrees_lift _) fun own => ?_
    cases own <;> exact agrees_pure _
  | succ references ih =>
    unfold Entry.name?
    refine .bind (agrees_lift _) fun own => ?_
    cases own with
    | some n => exact agrees_pure _
    | none =>
      refine .bind (referent?_agrees hload entry u _) fun referent => ?_
      cases referent with
      | some r => exact ih r.1 r.2
      | none => exact agrees_pure _

theorem searchEntries_agrees (hload : ∀ start, (load start).Agrees (load' start))
    (u : CompilationUnit) (address : Nat) (ending : Option DebugError) (entries : List Entry) :
    (u.searchEntries load s address ending entries).Agrees
      (u.searchEntries load' s address ending entries) := by
  induction entries with
  | nil =>
    cases ending with
    | some x => exact agrees_lift _
    | none => exact agrees_pure _
  | cons entry rest ih =>
    simp only [CompilationUnit.searchEntries]
    split
    · exact ih
    · refine .bind (agrees_lift _) fun start => ?_
      cases start with
      | none => exact ih
      | some start => exact .bind (name?_agrees hload _ u entry) fun name => agrees_pure _

end Remembering

namespace DebugInfo

open Remembering

variable (d : DebugInfo)

/-- Loads units with those that were loaded before. -/
def loadUnit (start : Nat) : Remembering d.sections CompilationUnit :=
  ofRecall (DecodedUnits.unit d.sections start)

theorem searchFunction_agrees (address : Nat) :
    (d.searchFunction d.loadUnit address).Agrees (d.function? address) := by
  unfold function? searchFunction
  split
  · exact agrees_pure _
  · exact .bind (agrees_ofRecall _) fun u =>
      searchEntries_agrees (fun _ => agrees_ofRecall _) u address _ _

theorem searchLine_agrees (address : Nat) :
    (d.searchLine d.loadUnit (fun start => ofRecall (DecodedUnits.lineTable d.sections start))
      address).Agrees (d.line? address) := by
  refine .bind (d.searchFunction_agrees address) fun found => ?_
  cases found with
  | none => exact agrees_pure _
  | some f => exact .bind (agrees_ofRecall _) fun t => agrees_pure _

/-- The function at an address, with the units that were loaded before. -/
def recallFunction (address : Nat) : Recall (DecodedUnits d.sections) (d.function? address) :=
  toRecall _ (d.searchFunction_agrees address)

/-- The line at an address, with the units and line tables that were loaded before. -/
def recallLine (address : Nat) : Recall (DecodedUnits d.sections) (d.line? address) :=
  toRecall _ (d.searchLine_agrees address)

end DebugInfo

end Postmortem.Debug
