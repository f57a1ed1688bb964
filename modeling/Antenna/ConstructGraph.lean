import Antenna.DispatchReplies
import Antenna.Library.RdfBlank
import Antenna.Library.TurtleReader
import Antenna.RoutingChecks

/-!
What a CONSTRUCT leaves in the store: each triple of its result is displayed and loaded as a document
of its own.
-/

namespace LeanAntenna

open Text Rdf

def constructType : Text := spNs ++ "Construct".toList

section Construct

variable {Store Carrier : Type} {host : Host Store Carrier} {world : World Store Carrier}

/-- The line of the displayed triple is loaded as the triple, with fresh blank nodes. -/
def LoadsDisplayed (host : Host Store Carrier) (graphOf : Store → Graph)
    (display : Triple → TripleText) (triple : Triple) : Prop :=
  ∀ store, Loads (graphOf store) [triple]
    (graphOf (host.insertTurtle store (World.tripleLine (display triple))).1)

theorem foldl_construct_loads {graphOf : Store → Graph} {display : Triple → TripleText}
    {constructed : List Triple}
    (loads : ∀ triple ∈ constructed, LoadsDisplayed host graphOf display triple)
    (world : World Store Carrier) :
    LoadsEach (graphOf world.store) constructed
      (graphOf ((constructed.map display).foldl
        (fun world triple =>
          ((world.send (World.tripleLine triple)).insertTurtle host (World.tripleLine triple)).1)
        world).store) := by
  induction constructed using List.reverseRecOn with
  | nil => exact LoadsEach.none
  | append_singleton constructed triple ih =>
      have earlier := ih fun other member => loads other (by simp [member])
      rw [List.map_append, List.foldl_append]
      exact LoadsEach.next earlier (loads triple (by simp) _)

/-- A CONSTRUCT adds the graph it constructs, up to the names of blank nodes, exactly if none of its
blank nodes is in the old graph or in two of its triples. -/
theorem construct_isomorphic_iff {graphOf : Store → Graph} {display : Triple → TripleText}
    {line sparql : Text} {rows : List (Except Text TripleText)} {constructed : List Triple}
    (asked : spText (extractProperty line) = some sparql)
    (answered : host.query world.store sparql = .ok (.graph rows))
    (delivered : rows.filterMap Except.toOption = constructed.map display)
    (loads : ∀ triple ∈ constructed, LoadsDisplayed host graphOf display triple) :
    Isomorphic ((graphOf world.store).add constructed)
        (graphOf (world.handleSpin host line constructType).store) ↔
      Separate (graphOf world.store) constructed := by
  have name : constructType.drop spNs.length = "Construct".toList := List.drop_left
  have others : "Construct".toList ≠ "Select".toList ∧ "Construct".toList ≠ "Ask".toList := by decide
  have run : world.handleSpin host line constructType =
      (constructed.map display).foldl
        (fun world triple =>
          ((world.send (World.tripleLine triple)).insertTurtle host (World.tripleLine triple)).1)
        (world.record (.query sparql)) := by
    unfold World.handleSpin
    rw [asked, name]
    dsimp only
    rw [if_neg others.1, if_neg others.2, if_pos rfl]
    unfold World.runConstruct
    dsimp only
    rw [answered]
    dsimp only
    rw [delivered]
  rw [run]
  exact (foldl_construct_loads loads (world.record (.query sparql))).isomorphic_iff

end Construct

section Concrete

/-- A label that is longer than every label of the graph. -/
def freshLabel (graph : Graph) (label : Text) : Text :=
  'b' :: (graph.flatMap Triple.labels).flatten ++ label

theorem freshLabel_fresh (graph : Graph) (label : Text) : freshLabel graph label ∉ graph.labels := by
  intro held
  rw [Graph.labels, List.mem_toFinset] at held
  have within : ∀ labels : List Text, freshLabel graph label ∈ labels →
      (freshLabel graph label).length ≤ labels.flatten.length := by
    intro labels member
    induction labels with
    | nil => contradiction
    | cons first labels ih =>
        rw [List.flatten_cons, List.length_append]
        rcases List.mem_cons.mp member with rfl | later
        · omega
        · have bound := ih later
          omega
  have short := within _ held
  unfold freshLabel at short
  simp only [List.length_cons, List.length_append] at short
  omega

theorem freshLabel_injective (graph : Graph) : Function.Injective (freshLabel graph) := by
  intro left right same
  unfold freshLabel at same
  rw [List.cons_append, List.cons_append] at same
  exact List.append_cancel_left (List.cons.inj same).2

/-- Loading under the fresh labels is loading with fresh blank nodes. -/
theorem loads_freshLabel (graph triples : Graph) :
    Loads graph triples (graph.add (triples.map (Triple.rename (freshLabel graph)))) := by
  refine ⟨freshLabel graph, (freshLabel_injective graph).injOn, ?_, ?_⟩
  · intro label _
    exact freshLabel_fresh graph label
  · intro triple
    rw [Graph.mem_add, List.mem_map]

def termOf : Turtle.Term → Term
  | .iri value => .resource (.iri value)
  | .blank label => .resource (.blank label)
  | .anonymous index => .resource (.blank ('a' :: Nat.toDigits 10 index))
  | .literal value .string => .literal value (Turtle.xsd "string") none
  | .literal value (.typed datatype) => .literal value datatype none
  | .literal value (.language tag) =>
      .literal value "http://www.w3.org/1999/02/22-rdf-syntax-ns#langString".toList (some tag)

/-- The triples of a statement. -/
def statementTriples (statement : Turtle.Statement) : Option (List Triple) :=
  (termOf statement.subject).asResource.map fun subject =>
    statement.facts.map fun (predicate, object) => ⟨subject, predicate, termOf object⟩

def displayResource : Resource → Text
  | .iri value => '<' :: value ++ ['>']
  | .blank label => '_' :: ':' :: label

def displayTerm : Term → Text
  | .resource named => displayResource named
  | .literal value datatype none =>
      '"' :: eventEscape value ++ "\"^^<".toList ++ datatype ++ ['>']
  | .literal value _ (some tag) => '"' :: eventEscape value ++ "\"@".toList ++ tag

def tripleText (triple : Triple) : TripleText :=
  ⟨displayResource triple.subject, displayResource (.iri triple.predicate), displayTerm triple.object⟩

/-- A store that is its default graph and answers every query with the triples. -/
def constructHost (constructed : List Triple) : Host Graph Unit where
  query _ _ := .ok (.graph (constructed.map fun triple => .ok (tripleText triple)))
  update graph _ := (graph, .ok ())
  insertTurtle graph line :=
    match (Turtle.read storePrefixes line).bind statementTriples with
    | some triples => (graph.add (triples.map (Triple.rename (freshLabel graph))), .ok ())
    | none => (graph, .error [])
  resolveActiveTheme _ := .ok []
  verifySignedBlocklist _ _ := .ok []
  call _ _ := ((), .ok [])

def constructLine : Text := "[] a sp:Construct ; sp:text \"CONSTRUCT\" .".toList

def emptyWorld : World Graph Unit := ⟨[], (), none, []⟩

def person : Resource := .blank "p".toList

/-- Two triples about one blank node. -/
def sharedTriples : List Triple :=
  [⟨person, "urn:knows".toList, .resource (.iri "urn:ann".toList)⟩,
    ⟨person, "urn:knows".toList, .resource (.iri "urn:bob".toList)⟩]

/-- The two triples come to be about two blank nodes. -/
theorem construct_splits_blank :
    ¬ Isomorphic (emptyWorld.store.add sharedTriples)
      (emptyWorld.handleSpin (constructHost sharedTriples) constructLine constructType).store := by
  intro same
  have count := same.card
  revert count
  decide

/-- Two triples whose three blank nodes are all different. -/
def apartTriples : List Triple :=
  [⟨person, "urn:knows".toList, .resource (.blank "q".toList)⟩,
    ⟨.blank "r".toList, "urn:knows".toList, .resource (.iri "urn:bob".toList)⟩]

theorem construct_isomorphic_apart :
    Isomorphic (emptyWorld.store.add apartTriples)
        (emptyWorld.handleSpin (constructHost apartTriples) constructLine constructType).store ↔
      Separate emptyWorld.store apartTriples := by
  have asked : spText (extractProperty constructLine) = some "CONSTRUCT".toList := by decide
  have read : ∀ triple ∈ apartTriples,
      (Turtle.read storePrefixes (World.tripleLine (tripleText triple))).bind statementTriples =
        some [triple] := by
    decide
  have loads : ∀ triple ∈ apartTriples,
      LoadsDisplayed (constructHost apartTriples) id tripleText triple := by
    intro triple member graph
    have loaded := loads_freshLabel graph [triple]
    unfold constructHost
    dsimp only
    rw [read triple member]
    exact loaded
  exact @construct_isomorphic_iff Graph Unit (constructHost apartTriples) emptyWorld id tripleText _ _ _ _
    asked rfl rfl loads

end Concrete

end LeanAntenna
