import Postmortem.Checked.Session
import Postmortem.Proofs.Overflow.Exports
import Postmortem.Proofs.Overflow.Modules
import Postmortem.Proofs.Overflow.Symbols
import Postmortem.Proofs.Symbolizer.Failure

/-!
# Questions in checked arithmetic

Of the usual sources only the symbol table can stop, and it does so for every address in an image
that has a function without an address. The other sources are not asked then.
-/
namespace Postmortem

namespace Checked

variable {image : Image} {data : Bytes} {options : ImageOptions}

/-- The nearest symbol of both tables is found unless a function has no address. -/
theorem nearestSymbol_eq (h : image.ReadFrom data options) (address : UInt64) :
    nearestSymbol image address =
      if image.FunctionsFit then some (image.nearestSymbol? address) else none := by
  rw [nearestSymbol, nearestExport_eq, nearestFunction_eq h]
  by_cases hfit : image.FunctionsFit
  · rw [if_pos hfit, if_pos hfit]
    rfl
  · rw [if_neg hfit, if_neg hfit]
    rfl

theorem stops_exports (q : SymbolQuery) : SymbolSource.exports.stops q = false := by
  change q.stopsIn _ = false
  unfold SymbolQuery.stopsIn
  split
  · next image address _ _ =>
    have hexports : (exports image).run = some image.exports := exports_agrees image
    dsimp only
    rw [hexports, Option.bind_eq_bind, Option.bind_some, nearestExport_eq]
    rfl
  · rfl

/-- A search in the image that gives something unless a function has no address. -/
theorem stopsIn_eq {α : Type} {q : SymbolQuery} {find : Image → UInt64 → Option α}
    {found : UInt64 → α} (hq : q.contents.image = some image)
    (hfind : ∀ address, find image address =
      if image.FunctionsFit then some (found address) else none) :
    q.stopsIn find = (q.imageAddress?.isSome && !decide image.FunctionsFit) := by
  rw [SymbolQuery.stopsIn, hq]
  cases q.imageAddress? with
  | none => rfl
  | some address =>
    dsimp only
    rw [hfind address]
    by_cases hfit : image.FunctionsFit <;> simp [hfit]

theorem stops_symbolTable (h : image.ReadFrom data options) {q : SymbolQuery}
    (hq : q.contents.image = some image) :
    SymbolSource.symbolTable.stops q = (q.imageAddress?.isSome && !decide image.FunctionsFit) :=
  stopsIn_eq hq (nearestFunction_eq h)

theorem stops_ownSymbol (h : image.ReadFrom data options) {q : SymbolQuery}
    (hq : q.contents.image = some image) :
    ImageSymbol.stops q = (q.imageAddress?.isSome && !decide image.FunctionsFit) :=
  stopsIn_eq hq (nearestSymbol_eq h)

/-- Sources that never stop, behind one that can. -/
theorem stops_cons {s : SymbolSource} {chain : SourceChain} {q : SymbolQuery}
    (h : ∀ source ∈ chain, source.stops q = false) :
    SourceChain.stops q (s :: chain) = s.stops q := by
  have hrest : SourceChain.stops q chain = false := by
    induction chain with
    | nil => rfl
    | cons first rest ih =>
      rw [SourceChain.stops, h first List.mem_cons_self,
        ih fun source hsource => h source (List.mem_cons_of_mem _ hsource), Bool.and_false]
      rfl
  rw [SourceChain.stops, hrest, Bool.and_false, Bool.or_false]

/-- A question to the usual sources stops if and only if a function of the image has no address. -/
theorem stops_standard (h : image.ReadFrom data options) (k : Question)
    (native : Option NativeSymbolizer) {q : SymbolQuery} (hq : q.contents.image = some image) :
    k.stops (.standard native) q = (q.imageAddress?.isSome && !decide image.FunctionsFit) := by
  cases k with
  | ownSymbol => exact stops_ownSymbol h hq
  | symbol =>
    have hrest : ∀ source ∈ .debugInfo :: (native.toList.map SymbolSource.native ++ [.exports]),
        source.stops q = false := by
      intro source hsource
      simp only [List.mem_cons, List.mem_append, List.mem_map, List.not_mem_nil, or_false]
        at hsource
      obtain rfl | ⟨n, -, rfl⟩ | rfl := hsource
      · rfl
      · rfl
      · exact stops_exports q
    exact (stops_cons hrest).trans (stops_symbolTable h hq)

/-! ## Modules that are asked -/

variable (k : Question) (w : World) (p : ProcessId) (a b : UInt64) (s : LiveSymbolizer)

theorem ask_of_module (h : s.cache.isAttached p = true)
    (ha : w.processes.moduleBase? p a = some b) :
    ask k w p a s =
      (contents w p (s.recordAt w p b) s).bind fun m =>
        if k.stops s.chain ⟨p, a, (s.recordAt w p b).base, m⟩ then none
        else some (k.ask w p a s) := by
  have hlookup : s.lookupModule w p a =
      (.ok (s.recordAt w p b), (s.lookupModule w p a).2) := by
    rw [s.lookupModule_of_module w p a b h ha]
    exact Prod.ext (s.cache.load_fst p b _ h) rfl
  rw [ask, hlookup]
  dsimp only
  cases contents w p (s.recordAt w p b) s with
  | none => rfl
  | some m =>
    simp only [Option.bind_eq_bind, Option.bind_some]
    cases k.stops s.chain ⟨p, a, (s.recordAt w p b).base, m⟩ <;> rfl

/-- A question that leads to a module with an image stops if and only if a function of the image has
no address. -/
theorem ask_eq {native : Option NativeSymbolizer} {m : ModuleImage}
    (hread : image.ReadFrom data options) (hchain : s.chain = .standard native)
    (h : s.cache.isAttached p = true) (ha : w.processes.moduleBase? p a = some b)
    (hbase : (s.recordAt w p b).base ≤ a) (hm : contents w p (s.recordAt w p b) s = some m)
    (himage : m.image = some image) :
    ask k w p a s = if image.FunctionsFit then some (k.ask w p a s) else none := by
  have haddress : SymbolQuery.imageAddress? ⟨p, a, (s.recordAt w p b).base, m⟩ =
      some (image.base + (a - (s.recordAt w p b).base)) := by
    rw [SymbolQuery.imageAddress?, ModuleImage.imageAddress?, himage]
    exact if_pos hbase
  rw [ask_of_module k w p a b s h ha, hm, Option.bind_some, hchain,
    stops_standard hread k native himage, haddress]
  by_cases hfit : image.FunctionsFit <;> simp [hfit]

end Checked

end Postmortem
