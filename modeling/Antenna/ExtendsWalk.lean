import Antenna.ThemeChecks

/-!
The walk of `ancestor_chain_values`, round by round: each round asks for the parents of the last theme
in the chain, and whichever the engine returns first is pushed unless the chain shows it already.
-/

namespace LeanAntenna

open Rdf Text Lineage Relation

section Walk

/-- One round of the loop: the longer chain, or nothing where the loop breaks. -/
def chainRound (first : FirstSolution) (graph : Graph) (chain : List Term) : Option (List Term) :=
  chain.getLast?.bind fun current => (extendsOf first graph current).bind fun parent =>
    if displayTerm parent ∈ chain.map displayTerm then none else some (chain ++ [parent])

/-- Each query has a first solution of its own. -/
def Climbs (graph : Graph) (chain longer : List Term) : Prop :=
  ∃ first, chainRound first graph chain = some longer

def Breaks (graph : Graph) (chain : List Term) : Prop := ∃ first, chainRound first graph chain = none

/-- The walk from the active theme can render the text. -/
def AncestorChainValues (graph : Graph) (active : Term) (text : Text) : Prop :=
  ∃ chain, ReflTransGen (Climbs graph) [active] chain ∧ Breaks graph chain ∧
    text = chainValues chain

end Walk

def themeTerm (iri : Text) : Term := .resource (.iri iri)

/-- No theme extends a blank node or a literal. -/
def IriParents (graph : Graph) : Prop := ∀ child parent, Extends graph child parent →
  ∃ iri, parent = themeTerm iri

/-- Every theme has at most one parent. -/
def SingleParents (graph : Graph) : Prop := ∀ theme left right, Extends graph theme left →
  Extends graph theme right → left = right

/-- One row for each IRI, with its place in the list as its depth. -/
def tableText (iris : List Text) : Text :=
  List.intercalate " ".toList (iris.zipIdx.map fun row =>
    "(<".toList ++ row.1 ++ "> ".toList ++ (toString row.2).toList ++ ")".toList)

/-- The rows go up from the active theme to distinct themes, and to all its ancestors if they have at
most one parent each. -/
structure ChainTable (graph : Graph) (active : Text) (iris : List Text) : Prop where
  first : iris[0]? = some active
  distinct : iris.Nodup
  rising : ∀ depth child parent, iris[depth]? = some child → iris[depth + 1]? = some parent →
    Extends graph (themeTerm child) (themeTerm parent)
  closure : SingleParents graph → ∀ term,
    ReflTransGen (Extends graph) (themeTerm active) term ↔ ∃ iri ∈ iris, term = themeTerm iri
  depth : SingleParents graph → ∀ depth iri, iris[depth]? = some iri →
    Generation (Extends graph) (themeTerm active) depth (themeTerm iri) ∧
      ∀ steps, Generation (Extends graph) (themeTerm active) steps (themeTerm iri) → depth ≤ steps

section Rounds

variable {graph : Graph} {active : Text} {chain : List Term}

theorem themeTerm_injective : Function.Injective themeTerm := by
  intro left right same
  cases same
  rfl

theorem display_injective {left right : Text}
    (same : displayTerm (themeTerm left) = displayTerm (themeTerm right)) : left = right := by
  change '<' :: left ++ ['>'] = '<' :: right ++ ['>'] at same
  simpa using same

theorem shown_iff {iris : List Text} {iri : Text} :
    displayTerm (themeTerm iri) ∈ (iris.map themeTerm).map displayTerm ↔
      themeTerm iri ∈ iris.map themeTerm := by
  constructor
  · intro member
    obtain ⟨term, listed, same⟩ := List.mem_map.mp member
    obtain ⟨other, inside, rfl⟩ := List.mem_map.mp listed
    rw [← display_injective same]
    exact listed
  · exact List.mem_map_of_mem

/-- The chain of a walk is a list of IRIs. -/
theorem risen_iris (parents : IriParents graph)
    (risen : Risen (Extends graph) (themeTerm active) chain) : ∃ iris : List Text, chain = iris.map themeTerm := by
  have named : ∀ term ∈ chain, ∃ iri, themeTerm iri = term := by
    intro term member
    obtain ⟨index, found⟩ := List.mem_iff_getElem?.mp member
    cases index with
    | zero => exact ⟨active, Option.some.inj (risen.first.symm.trans found)⟩
    | succ index =>
        have within := (List.getElem?_eq_some_iff.mp found).1
        have before : chain[index]? = some chain[index] := List.getElem?_eq_getElem (by omega)
        obtain ⟨iri, same⟩ := parents _ _ (risen.rising index _ term before found)
        exact ⟨iri, same.symm⟩
  choose! iriOf same using named
  refine ⟨chain.map iriOf, ?_⟩
  rw [List.map_map]
  have fixed : chain.map (themeTerm ∘ iriOf) = chain.map id := List.map_congr_left same
  rw [fixed, List.map_id]

theorem last_named {iris : List Text} {last : Term} (ends : (iris.map themeTerm).getLast? = some last) :
    ∃ iri, last = themeTerm iri := by
  obtain ⟨iri, -, same⟩ := List.mem_map.mp (List.mem_of_getLast? ends)
  exact ⟨iri, same.symm⟩

variable (parents : IriParents graph) (risen : Risen (Extends graph) (themeTerm active) chain)

include parents risen

/-- A round of the loop is a step up to a theme that is not in the chain. -/
theorem Climbs.rises {longer : List Term} (climbs : Climbs graph chain longer) :
    Rises (Extends graph) chain longer := by
  obtain ⟨iris, rfl⟩ := risen_iris parents risen
  obtain ⟨first, round⟩ := climbs
  obtain ⟨last, ends, asked⟩ := Option.bind_eq_some_iff.mp round
  obtain ⟨next, found, pushed⟩ := Option.bind_eq_some_iff.mp asked
  obtain ⟨iri, rfl⟩ := last_named ends
  have above := extendsOf_some rfl found
  obtain ⟨parent, rfl⟩ := parents _ _ above
  split at pushed
  · cases pushed
  · rename_i fresh
    cases pushed
    exact ⟨_, _, ends, above, fun member => fresh (shown_iff.mpr member), rfl⟩

/-- Where the loop breaks, a theme with one parent at most has it in the chain. -/
theorem Breaks.stuck (breaks : Breaks graph chain) (single : SingleParents graph) {last next : Term}
    (ends : chain.getLast? = some last) (above : Extends graph last next) : next ∈ chain := by
  obtain ⟨iris, rfl⟩ := risen_iris parents risen
  obtain ⟨first, round⟩ := breaks
  obtain ⟨iri, rfl⟩ := last_named ends
  have found := (@extendsOf_iff first graph _ next rfl (single _)).mpr above
  obtain ⟨parent, rfl⟩ := parents _ _ above
  rw [chainRound, ends, Option.bind_some, found, Option.bind_some] at round
  split at round
  · rename_i shown
    exact shown_iff.mp shown
  · cases round

/-- However the engine answers, the loop ends. -/
theorem walk_ends : Acc (fun longer shorter => Climbs graph shorter longer) chain := by
  have listed : ∀ child parent, Extends graph child parent → parent ∈ graph.map Triple.object := by
    rintro child parent ⟨subject, -, member⟩
    exact List.mem_map.mpr ⟨_, member, rfl⟩
  have ends := risen.ends listed
  induction ends with
  | intro chain _ ih =>
      refine Acc.intro chain fun longer climbs => ?_
      have rises := climbs.rises parents risen
      exact ih longer rises (risen.step rises)

end Rounds

section Results

variable {graph : Graph} {active : Text}

theorem walked_risen (parents : IriParents graph) {chain : List Term}
    (walked : ReflTransGen (Climbs graph) [themeTerm active] chain) :
    Risen (Extends graph) (themeTerm active) chain := by
  induction walked with
  | refl => exact risen_start
  | tail _ climbs ih => exact ih.step (climbs.rises parents ih)

/-- A loop that ends returns something. -/
theorem exists_breaks {chain : List Term}
    (ends : Acc (fun longer shorter => Climbs graph shorter longer) chain) :
    ∃ last, ReflTransGen (Climbs graph) chain last ∧ Breaks graph last := by
  induction ends with
  | intro chain _ ih =>
      cases round : chainRound headFirst graph chain with
      | none => exact ⟨chain, .refl, headFirst, round⟩
      | some longer =>
          have climbs : Climbs graph chain longer := ⟨headFirst, round⟩
          obtain ⟨last, walked, breaks⟩ := ih longer climbs
          exact ⟨last, .head climbs walked, breaks⟩

theorem chainValues_iris (iris : List Text) : chainValues (iris.map themeTerm) = tableText iris := by
  unfold chainValues tableText
  rw [List.zipIdx_map, List.map_map]
  congr 1
  refine List.map_congr_left fun row _ => ?_
  change '(' :: ('<' :: row.1 ++ ['>']) ++ ' ' :: (toString row.2).toList ++ ")".toList =
    ['(', '<'] ++ row.1 ++ ['>', ' '] ++ (toString row.2).toList ++ ")".toList
  simp

theorem getElem?_iris {iris : List Text} {index : Nat} {iri : Text}
    (found : iris[index]? = some iri) : (iris.map themeTerm)[index]? = some (themeTerm iri) := by
  rw [List.getElem?_map, found]
  rfl

/-- What a finished walk has listed is a table of the chain. -/
theorem chainTable_of_breaks (parents : IriParents graph) {iris : List Text}
    (risen : Risen (Extends graph) (themeTerm active) (iris.map themeTerm))
    (breaks : Breaks graph (iris.map themeTerm)) : ChainTable graph active iris := by
  have line : SingleParents graph → Line (Extends graph) (themeTerm active) (iris.map themeTerm) :=
    fun single => risen.line fun last next => breaks.stuck parents risen single
  refine ⟨?_, ?_, ?_, ?_, ?_⟩
  · have first := risen.first
    rw [List.getElem?_map, Option.map_eq_some_iff] at first
    obtain ⟨iri, found, same⟩ := first
    rw [found, themeTerm_injective same]
  · exact List.Nodup.of_map _ risen.distinct
  · intro depth child parent here there
    exact risen.rising depth _ _ (getElem?_iris here) (getElem?_iris there)
  · intro single term
    rw [← (line single).mem_iff_ancestor fun theme _ => single theme, List.mem_map]
    simp only [eq_comm]
  · intro single depth iri found
    have place := getElem?_iris found
    exact ⟨(line single).generation place, fun steps reaches =>
      (line single).least (fun theme _ => single theme) place reaches⟩

/-- The chain that the resolver walks with one choice of first solutions is one of these. -/
theorem ancestorChain_returned (first : FirstSolution) (parents : IriParents graph) :
    AncestorChainValues graph (themeTerm active)
      (chainValues (ancestorChain first graph (themeTerm active))) := by
  have walked : ∀ chain, ReflTransGen
      (Rises fun child next => extendsOf first graph child = some next) [themeTerm active] chain →
        ReflTransGen (Climbs graph) [themeTerm active] chain := by
    intro chain rises
    induction rises with
    | refl => exact .refl
    | tail _ last ih =>
        obtain ⟨iris, rfl⟩ := risen_iris parents (walked_risen parents ih)
        obtain ⟨last, next, ends, found, fresh, rfl⟩ := last
        obtain ⟨iri, rfl⟩ := last_named ends
        obtain ⟨parent, rfl⟩ := parents _ _ (extendsOf_some rfl found)
        refine ih.tail ⟨first, ?_⟩
        rw [chainRound, ends, Option.bind_some, found, Option.bind_some,
          if_neg fun shown => fresh (shown_iff.mp shown)]
  have begun : Climbed (extendsOf first graph) (themeTerm active) [] (themeTerm active) :=
    ⟨rfl, by simp, by simp⟩
  obtain ⟨front, last, ended, -, stuck⟩ := begun.climb
    (fun _ _ => extendsOf_listed) (graph.map Triple.object).length (by simp)
  refine ⟨ancestorChain first graph (themeTerm active),
    walked _ (climb_walks (extendsOf first graph) _ [] (themeTerm active)), ⟨first, ?_⟩, rfl⟩
  rw [ancestorChain, ended, chainRound, List.getLast?_concat, Option.bind_some]
  cases found : extendsOf first graph last with
  | none => rfl
  | some next =>
      rw [Option.bind_some, if_pos]
      exact List.mem_map_of_mem (stuck next found)

/-- The walk over a graph of IRIs ends whichever parents the engine returns, and its rows are a table of
the active theme's chain. -/
theorem extends_walk (graph : Graph) (parents : IriParents graph) (active : Text) :
    Acc (fun longer shorter => Climbs graph shorter longer) [themeTerm active] ∧
      (∃ text, AncestorChainValues graph (themeTerm active) text) ∧
      ∀ text, AncestorChainValues graph (themeTerm active) text →
        ∃ iris, text = tableText iris ∧ ChainTable graph active iris := by
  have ends : Acc _ [themeTerm active] := @walk_ends graph active _ parents risen_start
  refine ⟨ends, ?_, ?_⟩
  · obtain ⟨chain, walked, breaks⟩ := exists_breaks ends
    exact ⟨_, chain, walked, breaks, rfl⟩
  · rintro text ⟨chain, walked, breaks, rfl⟩
    have risen := walked_risen parents walked
    obtain ⟨iris, rfl⟩ := risen_iris parents risen
    exact ⟨iris, chainValues_iris iris, chainTable_of_breaks parents risen breaks⟩

/-- A theme that extends itself. -/
def loopGraph : Graph := [⟨.iri childTheme, designIri "extends", themeTerm childTheme⟩]

theorem extends_walk_loop :
    Acc (fun longer shorter => Climbs loopGraph shorter longer) [themeTerm childTheme] ∧
      (∃ text, AncestorChainValues loopGraph (themeTerm childTheme) text) ∧
      ∀ text, AncestorChainValues loopGraph (themeTerm childTheme) text →
        ∃ iris, text = tableText iris ∧ ChainTable loopGraph childTheme iris := by
  have parents : IriParents loopGraph := by
    rintro child parent ⟨subject, -, member⟩
    cases List.mem_singleton.mp member
    exact ⟨childTheme, rfl⟩
  exact extends_walk loopGraph parents childTheme

end Results

end LeanAntenna
