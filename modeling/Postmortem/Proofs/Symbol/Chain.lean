import Postmortem.Symbol.Chain

/-!
# What a chain of sources answers

A chain searches its sources twice, once for a name and once for a line. The name is that of the
first source which knows one that is not empty, the line is that of the first source which knows
one, and neither search is disturbed by the other: a source that fails, or whose name is empty,
only has no part in the search in which it failed. A longer chain therefore finds what a shorter
one found before.
-/
namespace Postmortem

namespace SymbolSource

/-- Whether a source knows a name that is not empty. Sources that fail know none. -/
def Names (source : SymbolSource) (q : SymbolQuery) : Prop :=
  ∃ symbol, source.symbol q = .ok (some symbol) ∧ symbol.name ≠ ""

/-- Whether a source knows a line. Sources that fail know none. -/
def Locates (source : SymbolSource) (q : SymbolQuery) : Prop :=
  ∃ line, source.line q = .ok (some line)

end SymbolSource

namespace SourceChain

variable (chain before after more : SourceChain) (q : SymbolQuery) (source : SymbolSource)

section Source

theorem symbolOf?_eq_none_iff : symbolOf? q source = none ↔ ¬ source.Names q := by
  unfold symbolOf? SymbolSource.Names
  cases h : source.symbol q with
  | error e => simp [named?]
  | ok found =>
    cases found with
    | none => simp [named?]
    | some symbol =>
      by_cases hname : symbol.name = "" <;> simp [named?, hname]

theorem symbolOf?_eq_some_iff (symbol : FoundSymbol) (label : String) :
    symbolOf? q source = some (symbol, label) ↔
      source.symbol q = .ok (some symbol) ∧ symbol.name ≠ "" ∧ label = source.label := by
  unfold symbolOf?
  cases h : source.symbol q with
  | error e => simp [named?]
  | ok found =>
    cases found with
    | none => simp [named?]
    | some known =>
      by_cases hname : known.name = ""
      · simp only [named?, hname, if_true, Except.ok.injEq, Option.some.injEq, reduceCtorEq,
          false_iff]
        rintro ⟨rfl, hne, _⟩
        exact hne hname
      · simp only [named?, hname, if_false, Except.ok.injEq, Option.some.injEq, Prod.mk.injEq]
        constructor
        · rintro ⟨rfl, rfl⟩
          exact ⟨rfl, hname, rfl⟩
        · rintro ⟨rfl, _, rfl⟩
          exact ⟨rfl, rfl⟩

theorem lineOf?_eq_some_iff (line : FoundLine) :
    lineOf? q source = some line ↔ source.line q = .ok (some line) := by
  unfold lineOf?
  cases h : source.line q <;> simp [known?]

theorem lineOf?_eq_none_iff : lineOf? q source = none ↔ ¬ source.Locates q := by
  rw [Option.eq_none_iff_forall_ne_some, SymbolSource.Locates, not_exists]
  exact forall_congr' fun line => not_congr (lineOf?_eq_some_iff q source line)

end Source

/-! The two searches by themselves. -/

/-- The name that the chain finds, with the label of its source. -/
def name? : Option (FoundSymbol × String) := chain.findSome? (symbolOf? q)

/-- The line that the chain finds. -/
def line? : Option FoundLine := chain.findSome? (lineOf? q)

theorem resolve?_eq : chain.resolve? q = (chain.name? q).map (answerWith (chain.line? q)) := rfl

/-- A source of the chain names the address, and none before it does. -/
def NamedFirst (symbol : FoundSymbol) : Prop :=
  ∃ before after, chain = before ++ source :: after ∧
    source.symbol q = .ok (some symbol) ∧ symbol.name ≠ "" ∧ ∀ s ∈ before, ¬ s.Names q

/-- A source of the chain knows the line, and none before it knows any. -/
def LocatedFirst (line : FoundLine) : Prop :=
  ∃ before after, chain = before ++ source :: after ∧
    source.line q = .ok (some line) ∧ ∀ s ∈ before, ¬ s.Locates q

theorem name?_eq_none_iff : chain.name? q = none ↔ ∀ source ∈ chain, ¬ source.Names q := by
  rw [name?, List.findSome?_eq_none_iff]
  exact forall_congr' fun source => imp_congr_right fun _ => symbolOf?_eq_none_iff q source

theorem name?_eq_some_iff (symbol : FoundSymbol) (label : String) :
    chain.name? q = some (symbol, label) ↔
      ∃ source, chain.NamedFirst q source symbol ∧ label = source.label := by
  rw [name?, List.findSome?_eq_some_iff]
  constructor
  · rintro ⟨before, source, after, hchain, hsource, hbefore⟩
    obtain ⟨hsymbol, hname, hlabel⟩ := (symbolOf?_eq_some_iff q source symbol label).mp hsource
    refine ⟨source, ⟨before, after, hchain, hsymbol, hname, ?_⟩, hlabel⟩
    intro s hs
    exact (symbolOf?_eq_none_iff q s).mp (hbefore s hs)
  · rintro ⟨source, ⟨before, after, hchain, hsymbol, hname, hbefore⟩, hlabel⟩
    refine ⟨before, source, after, hchain, ?_, ?_⟩
    · exact (symbolOf?_eq_some_iff q source symbol label).mpr ⟨hsymbol, hname, hlabel⟩
    · intro s hs
      exact (symbolOf?_eq_none_iff q s).mpr (hbefore s hs)

theorem line?_eq_some_iff (line : FoundLine) :
    chain.line? q = some line ↔ ∃ source, chain.LocatedFirst q source line := by
  rw [line?, List.findSome?_eq_some_iff]
  constructor
  · rintro ⟨before, source, after, hchain, hsource, hbefore⟩
    refine ⟨source, before, after, hchain, (lineOf?_eq_some_iff q source line).mp hsource, ?_⟩
    intro s hs
    exact (lineOf?_eq_none_iff q s).mp (hbefore s hs)
  · rintro ⟨source, before, after, hchain, hline, hbefore⟩
    refine ⟨before, source, after, hchain, (lineOf?_eq_some_iff q source line).mpr hline, ?_⟩
    intro s hs
    exact (lineOf?_eq_none_iff q s).mpr (hbefore s hs)

theorem name?_append : (chain ++ more).name? q = (chain.name? q).or (more.name? q) :=
  List.findSome?_append

theorem line?_append : (chain ++ more).line? q = (chain.line? q).or (more.line? q) :=
  List.findSome?_append

/-- A source that names nothing has no part in the search for a name. -/
theorem name?_without (h : ¬ source.Names q) :
    (before ++ source :: after).name? q = (before ++ after).name? q := by
  have hsource := (symbolOf?_eq_none_iff q source).mpr h
  simp only [name?, List.findSome?_append, List.findSome?_cons, hsource]

/-- A source that knows no line has no part in the search for one. -/
theorem line?_without (h : ¬ source.Locates q) :
    (before ++ source :: after).line? q = (before ++ after).line? q := by
  have hsource := (lineOf?_eq_none_iff q source).mpr h
  simp only [line?, List.findSome?_append, List.findSome?_cons, hsource]

/-- A chain has no answer when none of its sources knows a name. -/
theorem resolve?_eq_none_iff : chain.resolve? q = none ↔ ∀ source ∈ chain, ¬ source.Names q := by
  rw [resolve?_eq, Option.map_eq_none_iff, name?_eq_none_iff]

theorem resolve?_eq_some_iff (answer : ChainAnswer) :
    chain.resolve? q = some answer ↔
      chain.name? q = some (answer.symbol, answer.source) ∧ chain.line? q = answer.line := by
  rw [resolve?_eq, Option.map_eq_some_iff]
  constructor
  · rintro ⟨found, hfound, rfl⟩
    exact ⟨hfound, rfl⟩
  · rintro ⟨hname, hline⟩
    exact ⟨_, hname, by rw [hline, answerWith]⟩

/-- How a chain answers a query: by the first name and, apart from that, by the first line. -/
structure SearchesInOrder : Prop where
  none_iff : chain.resolve? q = none ↔ ∀ source ∈ chain, ¬ source.Names q
  some_iff : ∀ answer, chain.resolve? q = some answer ↔
    (∃ source, chain.NamedFirst q source answer.symbol ∧ answer.source = source.label) ∧
      ∀ line, answer.line = some line ↔ ∃ source, chain.LocatedFirst q source line
  /-- A source that knows neither a name nor a line may be left out. -/
  without : ∀ (before : SourceChain) source (after : SourceChain),
    chain = before ++ source :: after → ¬ source.Names q → ¬ source.Locates q →
      SourceChain.resolve? (before ++ after) q = chain.resolve? q
  /-- Sources that are added at the end do not change what was found without them. -/
  extended : ∀ (more : SourceChain) answer, chain.resolve? q = some answer →
    ∃ later, SourceChain.resolve? (chain ++ more) q = some later ∧ later.symbol = answer.symbol ∧
      later.source = answer.source ∧ ∀ line, answer.line = some line → later.line = some line
  /-- What two chains find together is known from the two searches of each. -/
  append : ∀ more : SourceChain, SourceChain.resolve? (chain ++ more) q =
    ((chain.name? q).or (more.name? q)).map (answerWith ((chain.line? q).or (more.line? q)))
  /-- What was decoded of the module before does not matter. -/
  recalled : ∀ kept, ((chain.recallAnswer q).run kept).1 = chain.resolve? q

/-- Every chain of sources searches in order, whatever its sources know and however they fail. -/
theorem searchesInOrder : chain.SearchesInOrder q := by
  refine ⟨chain.resolve?_eq_none_iff q, ?_, ?_, ?_, ?_, (chain.recallAnswer q).run_fst⟩
  · intro answer
    rw [resolve?_eq_some_iff, name?_eq_some_iff]
    refine and_congr_right fun _ => ?_
    rw [Option.ext_iff]
    refine forall_congr' fun line => ?_
    rw [line?_eq_some_iff]
    exact iff_comm
  · rintro before source after rfl hname hline
    rw [resolve?_eq, resolve?_eq, name?_without before after q source hname,
      line?_without before after q source hline]
  · intro more answer h
    obtain ⟨hname, hline⟩ := (chain.resolve?_eq_some_iff q answer).mp h
    refine ⟨answerWith ((chain ++ more).line? q) (answer.symbol, answer.source), ?_, rfl, rfl, ?_⟩
    · rw [resolve?_eq, name?_append, hname]
      rfl
    · intro line hl
      change (chain ++ more).line? q = some line
      rw [line?_append, hline, hl]
      rfl
  · intro more
    rw [resolve?_eq, name?_append, line?_append]

end SourceChain

end Postmortem
