import Postmortem.Symbol.Source

/-!
# Sources in order

A chain asks its sources one after the other and takes the first name and the first line that there
are. A source that fails is passed over. Name and line may come from different sources.
-/
namespace Postmortem

/-- The answer of a chain: a symbol, the label of its source, and perhaps a line. -/
structure ChainAnswer where
  symbol : FoundSymbol
  source : String
  line : Option FoundLine
  deriving DecidableEq, Repr

abbrev SourceChain := List SymbolSource

namespace SourceChain

/-- The usual order. Export tables come last, since they name few functions. -/
def standard (native : Option NativeSymbolizer) : SourceChain :=
  [.symbolTable, .debugInfo] ++ (native.toList.map .native ++ [.exports])

def labels (chain : SourceChain) : List String := chain.map (·.label)

/-- A symbol whose name is not empty, with the label of its source. -/
def named? (label : String) :
    Except LookupError (Option FoundSymbol) → Option (FoundSymbol × String)
  | .ok (some symbol) => if symbol.name = "" then none else some (symbol, label)
  | _ => none

/-- A line, if there was no failure. -/
def known? : Except LookupError (Option FoundLine) → Option FoundLine
  | .ok line => line
  | .error _ => none

/-- The symbol that a source has, if its name is not empty. -/
def symbolOf? (q : SymbolQuery) (s : SymbolSource) : Option (FoundSymbol × String) :=
  named? s.label (s.symbol q)

/-- The line that a source has. -/
def lineOf? (q : SymbolQuery) (s : SymbolSource) : Option FoundLine := known? (s.line q)

/-- The answer for a name with the label of its source, and perhaps a line. -/
def answerWith (line : Option FoundLine) (found : FoundSymbol × String) : ChainAnswer :=
  { symbol := found.1, source := found.2, line }

/-- The first name and the first line. Without a name there is no answer. -/
def resolve? (chain : SourceChain) (q : SymbolQuery) : Option ChainAnswer :=
  (chain.findSome? (symbolOf? q)).map (answerWith (chain.findSome? (lineOf? q)))

/-- The name that a source has, with what was decoded of the module before. -/
def recallSymbolOf (q : SymbolQuery) (s : SymbolSource) :
    Recall (Decoded q.contents) (symbolOf? q s) :=
  (s.recallSymbol q).map (named? s.label)

/-- The line that a source has, with what was decoded of the module before. -/
def recallLineOf (q : SymbolQuery) (s : SymbolSource) : Recall (Decoded q.contents) (lineOf? q s) :=
  (s.recallLine q).map known?

/-- The answer of the chain, with what was decoded of the module before. Lines are only looked for
when there is a name. -/
def recallAnswer (chain : SourceChain) (q : SymbolQuery) :
    Recall (Decoded q.contents) (chain.resolve? q) :=
  (Recall.findSome? (recallSymbolOf q) chain).bind
      (f := Option.map (answerWith (chain.findSome? (lineOf? q)))) fun
    | some found =>
      (Recall.findSome? (recallLineOf q) chain).map fun line => some (answerWith line found)
    | none => .pure none

/-- Whether checked arithmetic stops while a name is looked for. The sources behind the first name
are only asked for lines, which takes none that could stop. -/
def stops (q : SymbolQuery) : SourceChain → Bool
  | [] => false
  | s :: rest => s.stops q || (symbolOf? q s).isNone && stops q rest

end SourceChain

/-! The symbols of an image's own tables are found without a chain. -/

namespace ImageSymbol

/-- A symbol of an image as an answer. -/
def ofMatch (m : SymbolMatch) : ChainAnswer :=
  { symbol := SymbolSource.ofMatch m, source := "export", line := none }

/-- The symbol of an image's own tables that starts closest before the address or at it. -/
def resolve? (q : SymbolQuery) : Option ChainAnswer :=
  match q.contents.image, q.imageAddress? with
  | some image, some address => (image.nearestSymbol? address).map ofMatch
  | _, _ => none

/-- The same symbol, with what was decoded of the module before. -/
def recallAnswer (q : SymbolQuery) : Recall (Decoded q.contents) (resolve? q) :=
  match himage : q.contents.image, haddress : q.imageAddress? with
  | some image, some address =>
    ((Decoded.recallNearestExport himage address).map fun nearest =>
      (Image.nearer? nearest (image.nearestFunction? address)).map ofMatch).cast
        (by simp [resolve?, himage, haddress, Image.nearestSymbol?])
  | some _, none | none, _ => (Recall.pure none).cast (by simp [resolve?, *])

/-- Whether checked arithmetic stops while the symbol is looked for. -/
def stops (q : SymbolQuery) : Bool := q.stopsIn Checked.nearestSymbol

end ImageSymbol

end Postmortem
