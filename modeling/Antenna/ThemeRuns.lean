import Antenna.StartupChecks
import Antenna.ThemeChecks

/-!
The theme over whole runs: what peers and scripts put into the store can choose among the themes that
the boot loaded, and change none of them.
-/

namespace LeanAntenna

open Rdf Replay

section Selection

variable {first : FirstSolution} {store : Dataset} {active : Term}

def hasTheme : Text := radioNs ++ "hasTheme".toList

/-- The pattern that looks for the radio's theme. -/
def chosenTheme : ThemePattern := .triple (.var .radio) (.value (.iri hasTheme)) (.var .t)

theorem object_along {Var Value : Type} [DecidableEq Var] [DecidableEq Value]
    {graph : List (Sparql.Statement Value)} {solution found : Sparql.Solution Var Value}
    {subject : Sparql.Slot Var Value} {property : Value} {object : Var}
    (member : found ∈ Sparql.eval graph (.triple subject (.value property) (.var object)) solution) :
    ∃ held ∈ graph, held.predicate = property ∧ found object = some held.object := by
  rw [Sparql.mem_triple] at member
  obtain ⟨held, inside, middle, _, after, along, unified⟩ := member
  have known : middle.get (.value property) = some property := rfl
  obtain ⟨agrees, -⟩ := (Sparql.unify_get known).mp along
  exact ⟨held, inside, agrees.symm, Sparql.unify_var unified⟩

theorem chosen_listed {graph : Graph} (found : firstBinding first graph .t chosenTheme = some active) :
    ∃ radio, ⟨radio, hasTheme, active⟩ ∈ graph := by
  obtain ⟨datum, shown, same⟩ := List.mem_filterMap.mp (first.pick_mem _ _ found)
  obtain ⟨solution, member, bound⟩ := Sparql.mem_select.mp shown
  obtain ⟨statement, held, along, object⟩ := object_along member
  obtain ⟨triple, inside, rfl⟩ := List.mem_map.mp held
  obtain rfl := Option.some.inj (bound.symm.trans object)
  cases same
  have property : triple.predicate = hasTheme := by simpa [statementOf, Datum.iri] using along
  exact ⟨triple.subject, property ▸ inside⟩

theorem activeThemeIri_unchosen (none : firstBinding first store.default .t chosenTheme = none) :
    activeThemeIri first store = activeThemeIri first ⟨[], store.named⟩ := by
  have empty : firstBinding first ([] : Graph) .t chosenTheme = Option.none := by
    cases found : firstBinding first ([] : Graph) .t chosenTheme with
    | none => rfl
    | some theme =>
        obtain ⟨radio, member⟩ := chosen_listed found
        exact absurd member List.not_mem_nil
  unfold chosenTheme hasTheme at none empty
  unfold activeThemeIri
  rw [none, empty]

theorem activeThemeIri_chosen {theme : Term}
    (chosen : firstBinding first store.default .t chosenTheme = some theme) :
    activeThemeIri first store = some theme := by
  unfold chosenTheme hasTheme at chosen
  unfold activeThemeIri
  rw [chosen]

/-- The theme in force is one that the default graph names for a radio, or the theme graph's own. -/
theorem activeThemeIri_selected (selected : activeThemeIri first store = some active) :
    (∃ radio, ⟨radio, hasTheme, active⟩ ∈ store.default) ∨
      activeThemeIri first ⟨[], store.named⟩ = some active := by
  cases chosen : firstBinding first store.default .t chosenTheme with
  | none => exact Or.inr ((activeThemeIri_unchosen chosen).symm.trans selected)
  | some theme =>
      rw [activeThemeIri_chosen chosen] at selected
      obtain rfl := Option.some.inj selected
      exact Or.inl (chosen_listed chosen)

end Selection

section Runs

variable {Carrier : Type} {parse : Parser} {bundle : BootBundle} {inputs : BootInputs}
  {store after : Dataset} {bootHost : BootHost Carrier} {dag : Dag} {context : Context Dataset Carrier}

/-- An update that leaves the theme graph as it is. -/
def SparesThemes (host : Host Dataset Carrier) (sparql : Text) : Prop :=
  ∀ store, (host.update store sparql).1.named themeGraph = store.named themeGraph

/-- Whatever Turtle a run puts into the store, from peers or from scripts: the theme graph is the
bundle's to the end. What a resolve works on is that graph and a theme which a triple of the default
graph names for a radio or, failing that, the bundle's own. -/
theorem themes_only_chosen (first : FirstSolution) (host : Host Dataset Carrier)
    (booted : newWithTtl parse bootHost bundle inputs store = (after, .ok (dag, context)))
    {ticks : List (TickInputs Carrier)} {final : Dataset}
    (ran : (replay (Context.tick (storeHost parse host)) context ticks).world.store = final)
    (spared : ∀ tick ∈ ticks, ∀ line ∈ tick.lines ++ tick.emits,
      ∀ sparql, updateOf line = some sparql → SparesThemes host sparql) :
    (∀ triple, triple ∈ final.named themeGraph ↔
      ∃ ttl ∈ bundle.design ++ [bundle.resolver], triple ∈ loadedGraph parse ttl) ∧
    (activeThemeIri first final = none → resolveActiveTheme first final = .ok []) ∧
    ∀ active, activeThemeIri first final = some active →
      ((∃ radio, ⟨radio, hasTheme, active⟩ ∈ final.default) ∨
        activeThemeIri first ⟨[], after.named⟩ = some active) ∧
      resolveActiveTheme first final = runQueries (after.named themeGraph) active
        (ancestorChain first (after.named themeGraph) active) resolverQueries := by
  obtain ⟨rebuilt, -, begun, -⟩ := boot_rebuilds booted
  have inserts : ∀ store line, store.named themeGraph = after.named themeGraph →
      ((storeHost parse host).insertTurtle store line).1.named themeGraph =
        after.named themeGraph := by
    intro store line held
    change (insertTurtle parse store line).1.named themeGraph = _
    cases outcome : parse (turtleDocument line) with
    | error reason => rwa [insertTurtle_error outcome]
    | ok added => rwa [insertTurtle_ok outcome]
  have held : context.world.store.named themeGraph = after.named themeGraph := by rw [begun]
  have kept := kept_ticks inserts held fun tick member line listed sparql runs store held =>
    (spared tick member line listed sparql runs store).trans held
  rw [ran] at kept
  refine ⟨fun triple => ?_, fun none => ?_, fun active selected => ⟨?_, ?_⟩⟩
  · rw [kept]
    exact rebuilt.theme triple
  · rw [resolveActiveTheme, none]
  · rcases activeThemeIri_selected selected with chosen | own
    · exact Or.inl chosen
    · refine Or.inr (Eq.trans ?_ own)
      simp only [activeThemeIri, kept]
  · rw [resolveActiveTheme, selected, kept]

theorem themes_only_chosen_peer :
    ∃ after dag, ∃ (context : Context Dataset Unit),
      newWithTtl bundleParse sampleHost sampleBundle sampleInputs pipelineStore =
        (after, .ok (dag, context)) ∧
      ∀ triple, triple ∈ (replay (Context.tick (storeHost bundleParse datasetHost)) context
          [peerTick]).world.store.named themeGraph ↔
        ∃ ttl ∈ sampleBundle.design ++ [sampleBundle.resolver],
          triple ∈ loadedGraph bundleParse ttl := by
  obtain ⟨after, dag, booted⟩ := sample_boots
  have data : updateOf peerTtl = none := by decide
  have spared : ∀ tick ∈ [peerTick], ∀ line ∈ tick.lines ++ tick.emits,
      ∀ sparql, updateOf line = some sparql → SparesThemes datasetHost sparql := by
    intro tick member line listed sparql runs
    obtain rfl := List.mem_singleton.mp member
    have read : line ∈ [peerTtl] := listed
    rw [List.mem_singleton.mp read, data] at runs
    cases runs
  refine ⟨after, dag, _, booted, ?_⟩
  generalize ran : (replay (Context.tick (storeHost bundleParse datasetHost)) _ [peerTick]).world.store =
    final
  exact (themes_only_chosen headFirst datasetHost booted ran spared).1

end Runs

end LeanAntenna
