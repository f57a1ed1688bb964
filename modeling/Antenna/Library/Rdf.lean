import Antenna.Library.Text

/-!
RDF graphs and datasets, and the pieces from which the solutions of a graph pattern are put
together.
-/

namespace Rdf

inductive Resource where
  | iri (value : Text)
  | blank (label : Text)
deriving DecidableEq, Repr

inductive Term where
  | resource (resource : Resource)
  | literal (value datatype : Text) (language : Option Text)
deriving DecidableEq, Repr

structure Triple where
  subject : Resource
  predicate : Text
  object : Term
deriving DecidableEq, Repr

def typePredicate : Text := "http://www.w3.org/1999/02/22-rdf-syntax-ns#type".toList

/-- A term stands in subject position only if it is no literal. -/
def Term.asResource : Term → Option Resource
  | .resource named => some named
  | .literal _ _ _ => none

abbrev Graph := List Triple

namespace Graph

variable (graph : Graph)

def objects (subject : Resource) (predicate : Text) : List Term :=
  (graph.filter fun triple => triple.subject = subject ∧ triple.predicate = predicate).map
    Triple.object

def resources (subject : Resource) (predicate : Text) : List Resource :=
  (graph.objects subject predicate).filterMap Term.asResource

/-- The bindings of an optional pattern: one unbound when nothing matches. -/
def optional (subject : Resource) (predicate : Text) : List (Option Term) :=
  if graph.objects subject predicate = [] then [none]
  else (graph.objects subject predicate).map some

def typeTriple (subject : Resource) (type : Text) : Triple :=
  ⟨subject, typePredicate, .resource (.iri type)⟩

/-- The subjects of the class. -/
def instances (type : Text) : List Resource :=
  (graph.map Triple.subject).filter fun subject => typeTriple subject type ∈ graph

/-- A graph is a set, so a triple it holds already is not added again. -/
def add (triples : Graph) : Graph := graph ++ triples.filter (· ∉ graph)

def without (subjects : List Resource) : Graph := graph.filter (·.subject ∉ subjects)

variable {graph}

@[simp] theorem mem_objects {subject : Resource} {predicate : Text} {object : Term} :
    object ∈ graph.objects subject predicate ↔ ⟨subject, predicate, object⟩ ∈ graph := by
  simp only [objects, List.mem_map, List.mem_filter, decide_eq_true_eq]
  constructor
  · rintro ⟨triple, ⟨member, rfl, rfl⟩, rfl⟩
    exact member
  · intro member
    exact ⟨_, ⟨member, rfl, rfl⟩, rfl⟩

@[simp] theorem mem_resources {subject : Resource} {predicate : Text} {resource : Resource} :
    resource ∈ graph.resources subject predicate ↔
      ⟨subject, predicate, .resource resource⟩ ∈ graph := by
  simp only [resources, List.mem_filterMap, mem_objects]
  constructor
  · rintro ⟨object, member, same⟩
    cases object with
    | resource inner =>
        cases same
        exact member
    | literal value datatype language => cases same
  · intro member
    exact ⟨_, member, rfl⟩

@[simp] theorem mem_instances {type : Text} {subject : Resource} :
    subject ∈ graph.instances type ↔ typeTriple subject type ∈ graph := by
  simp only [instances, List.mem_filter, List.mem_map, decide_eq_true_eq, and_iff_right_iff_imp]
  exact fun member => ⟨_, member, rfl⟩

@[simp] theorem mem_add {triples : Graph} {triple : Triple} :
    triple ∈ graph.add triples ↔ triple ∈ graph ∨ triple ∈ triples := by
  by_cases held : triple ∈ graph <;> simp [add, held]

@[simp] theorem nil_add (triples : Graph) : Graph.add [] triples = triples := by simp [add]

@[simp] theorem mem_without {subjects : List Resource} {triple : Triple} :
    triple ∈ graph.without subjects ↔ triple ∈ graph ∧ triple.subject ∉ subjects := by
  simp [without]

theorem mem_optional_some {subject : Resource} {predicate : Text} {object : Term} :
    some object ∈ graph.optional subject predicate ↔ ⟨subject, predicate, object⟩ ∈ graph := by
  unfold optional
  split
  · rename_i empty
    rw [← mem_objects, empty]
    simp
  · simp

/-- An optional pattern always leaves a binding to go on with. -/
theorem optional_ne_nil (subject : Resource) (predicate : Text) :
    graph.optional subject predicate ≠ [] := by
  unfold optional
  split
  · simp
  · simpa

end Graph

/-- A default graph and the named graphs beside it. -/
structure Dataset where
  default : Graph
  named : Text → Graph

namespace Dataset

def empty : Dataset := ⟨[], fun _ => []⟩

def insert (dataset : Dataset) (triples : Graph) : Dataset :=
  { dataset with default := dataset.default.add triples }

def setNamed (dataset : Dataset) (name : Text) (graph : Graph) : Dataset :=
  { dataset with named := fun other => if other = name then graph else dataset.named other }

@[simp] theorem setNamed_default (dataset : Dataset) (name : Text) (graph : Graph) :
    (dataset.setNamed name graph).default = dataset.default := rfl

@[simp] theorem setNamed_same (dataset : Dataset) (name : Text) (graph : Graph) :
    (dataset.setNamed name graph).named name = graph := if_pos rfl

@[simp] theorem insert_named (dataset : Dataset) (triples : Graph) :
    (dataset.insert triples).named = dataset.named := rfl

end Dataset

end Rdf
