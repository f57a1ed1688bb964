import Antenna.Library.Rdf
import Mathlib.Algebra.GroupWithZero.Nat
import Mathlib.Data.Finset.Card
import Mathlib.Data.Finset.Union
import Mathlib.Data.Set.Function

/-!
Blank nodes: graphs up to renaming, and documents that are loaded into a graph with fresh blank nodes
of their own.
-/

namespace Rdf

section Labels

def Resource.labels : Resource → List Text
  | .iri _ => []
  | .blank label => [label]

def Term.labels : Term → List Text
  | .resource named => named.labels
  | .literal _ _ _ => []

def Triple.labels (triple : Triple) : List Text := triple.subject.labels ++ triple.object.labels

def Graph.labels (graph : Graph) : Finset Text := (graph.flatMap Triple.labels).toFinset

def Resource.rename (rename : Text → Text) : Resource → Resource
  | .iri value => .iri value
  | .blank label => .blank (rename label)

def Term.rename (rename : Text → Text) : Term → Term
  | .resource named => .resource (named.rename rename)
  | .literal value datatype language => .literal value datatype language

def Triple.rename (rename : Text → Text) (triple : Triple) : Triple :=
  ⟨triple.subject.rename rename, triple.predicate, triple.object.rename rename⟩

variable {rename other : Text → Text} {triple : Triple} {graph triples : Graph} {label : Text}

theorem Resource.labels_rename (resource : Resource) :
    (resource.rename rename).labels = resource.labels.map rename := by
  cases resource <;> rfl

theorem Term.labels_rename (term : Term) :
    (term.rename rename).labels = term.labels.map rename := by
  cases term with
  | resource named => exact named.labels_rename
  | literal value datatype language => rfl

theorem Triple.labels_rename : (triple.rename rename).labels = triple.labels.map rename := by
  unfold Triple.labels Triple.rename
  rw [Resource.labels_rename, Term.labels_rename, List.map_append]

theorem Resource.rename_congr {resource : Resource}
    (same : ∀ label ∈ resource.labels, rename label = other label) :
    resource.rename rename = resource.rename other := by
  cases resource with
  | iri value => rfl
  | blank label => exact congrArg Resource.blank (same label (by simp [Resource.labels]))

theorem Triple.rename_congr (same : ∀ label ∈ triple.labels, rename label = other label) :
    triple.rename rename = triple.rename other := by
  obtain ⟨subject, predicate, object⟩ := triple
  have subjects : subject.rename rename = subject.rename other :=
    Resource.rename_congr fun label member => same label (by simp [Triple.labels, member])
  have objects : object.rename rename = object.rename other := by
    cases object with
    | resource named =>
        exact congrArg Term.resource (Resource.rename_congr fun label member =>
          same label (by simp [Triple.labels, Term.labels, member]))
    | literal value datatype language => rfl
  unfold Triple.rename
  rw [subjects, objects]

@[simp] theorem Graph.mem_labels : label ∈ graph.labels ↔ ∃ triple ∈ graph, label ∈ triple.labels := by
  rw [Graph.labels, List.mem_toFinset, List.mem_flatMap]

theorem Graph.labels_add : (graph.add triples).labels = graph.labels ∪ Graph.labels triples := by
  ext label
  simp only [Graph.mem_labels, Graph.mem_add, Finset.mem_union, or_and_right, exists_or]

theorem Graph.labels_append :
    Graph.labels (graph ++ triples) = graph.labels ∪ Graph.labels triples := by
  ext label
  simp only [Graph.mem_labels, List.mem_append, Finset.mem_union, or_and_right, exists_or]

end Labels

/-- The right graph is the left one with other blank nodes. -/
def Isomorphic (left right : Graph) : Prop :=
  ∃ rename : Text → Text, Set.InjOn rename left.labels ∧
    ∀ triple, triple ∈ right ↔ ∃ source ∈ left, source.rename rename = triple

/-- A document's triples are added to a graph, with blank nodes that the graph does not hold. -/
def Loads (old triples new : Graph) : Prop :=
  ∃ rename : Text → Text, Set.InjOn rename (Graph.labels triples) ∧
    (∀ label ∈ Graph.labels triples, rename label ∉ old.labels) ∧
    ∀ triple, triple ∈ new ↔ triple ∈ old ∨ ∃ source ∈ triples, source.rename rename = triple

/-- Triples are loaded one after the other, each as a document of its own. -/
inductive LoadsEach (old : Graph) : List Triple → Graph → Prop where
  | none : LoadsEach old [] old
  | next {triples : List Triple} {triple : Triple} {middle new : Graph}
      (earlier : LoadsEach old triples middle) (loaded : Loads middle [triple] new) :
      LoadsEach old (triples ++ [triple]) new

/-- No blank node of the triples is in the graph or in two of the triples. -/
def Separate (old : Graph) (triples : List Triple) : Prop :=
  (∀ triple ∈ triples, ∀ label ∈ triple.labels, label ∉ old.labels) ∧
    triples.Pairwise fun left right => ∀ label ∈ left.labels, label ∉ right.labels

section Counting

variable {left right old new : Graph} {triples : List Triple}

theorem labels_image {rename : Text → Text}
    (image : ∀ triple, triple ∈ right ↔ ∃ source ∈ left, source.rename rename = triple) :
    right.labels = left.labels.image rename := by
  ext label
  simp only [Graph.mem_labels, Finset.mem_image]
  constructor
  · rintro ⟨triple, member, inside⟩
    obtain ⟨source, held, rfl⟩ := (image triple).mp member
    rw [Triple.labels_rename, List.mem_map] at inside
    obtain ⟨origin, within, rfl⟩ := inside
    exact ⟨origin, ⟨source, held, within⟩, rfl⟩
  · rintro ⟨origin, ⟨source, held, within⟩, rfl⟩
    refine ⟨source.rename rename, (image _).mpr ⟨source, held, rfl⟩, ?_⟩
    rw [Triple.labels_rename]
    exact List.mem_map_of_mem within

theorem Isomorphic.card (same : Isomorphic left right) : left.labels.card = right.labels.card := by
  obtain ⟨rename, injective, image⟩ := same
  rw [labels_image image, Finset.card_image_of_injOn injective]

theorem labels_loads {rename : Text → Text}
    (image : ∀ triple, triple ∈ new ↔ triple ∈ old ∨ ∃ source ∈ triples, source.rename rename = triple) :
    new.labels = old.labels ∪ (Graph.labels triples).image rename := by
  have added : ∀ triple, triple ∈ Graph.add old (triples.map (Triple.rename rename)) ↔ triple ∈ new := by
    intro triple
    rw [image, Graph.mem_add, List.mem_map]
  have parts : Graph.labels (triples.map (Triple.rename rename)) =
      (Graph.labels triples).image rename :=
    labels_image fun triple => by rw [List.mem_map]
  rw [← parts, ← Graph.labels_add]
  ext label
  simp only [Graph.mem_labels, added]

/-- Fresh blank nodes are counted on top of the old ones. -/
theorem Loads.card (loaded : Loads old triples new) :
    new.labels.card = old.labels.card + (Graph.labels triples).card := by
  obtain ⟨rename, injective, fresh, image⟩ := loaded
  have apart : Disjoint old.labels ((Graph.labels triples).image rename) := by
    rw [Finset.disjoint_right]
    intro label member
    obtain ⟨origin, within, rfl⟩ := Finset.mem_image.mp member
    exact fresh origin within
  rw [labels_loads image, Finset.card_union_of_disjoint apart, Finset.card_image_of_injOn injective]

theorem LoadsEach.card (loaded : LoadsEach old triples new) :
    new.labels.card =
      old.labels.card + (triples.map fun triple => (Graph.labels [triple]).card).sum := by
  induction loaded with
  | none => simp
  | next earlier loaded ih =>
      rw [loaded.card, ih, List.map_append, List.sum_append]
      simp only [List.map_cons, List.map_nil, List.sum_cons, List.sum_nil]
      omega

theorem separate_append {triple : Triple} :
    Separate old (triples ++ [triple]) ↔
      Separate old triples ∧ Disjoint (old.add triples).labels (Graph.labels [triple]) := by
  have disjoint : Disjoint (old.add triples).labels (Graph.labels [triple]) ↔
      ∀ label ∈ triple.labels, label ∉ old.labels ∧ ∀ source ∈ triples, label ∉ source.labels := by
    rw [Finset.disjoint_right, Graph.labels_add]
    simp only [Graph.mem_labels, List.mem_singleton, exists_eq_left, Finset.mem_union, not_or,
      not_exists, not_and]
  rw [disjoint, Separate, Separate, List.pairwise_append]
  simp only [List.mem_append, List.mem_singleton, or_imp, forall_and, forall_eq, List.pairwise_singleton,
    true_and]
  constructor
  · rintro ⟨⟨within, own⟩, pairwise, across⟩
    exact ⟨⟨within, pairwise⟩, own, fun label member source held inside =>
      across source held label inside member⟩
  · rintro ⟨⟨within, pairwise⟩, own, across⟩
    exact ⟨⟨within, own⟩, pairwise, fun source held label inside member =>
      across label member source held inside⟩

/-- The blank nodes of the union are as many as if each triple had its own exactly if it has. -/
theorem card_union_iff_separate (old : Graph) (triples : List Triple) :
    (old.add triples).labels.card ≤
        old.labels.card + (triples.map fun triple => (Graph.labels [triple]).card).sum ∧
      ((old.add triples).labels.card =
          old.labels.card + (triples.map fun triple => (Graph.labels [triple]).card).sum ↔
        Separate old triples) := by
  induction triples using List.reverseRecOn with
  | nil => simp [Graph.add, Separate]
  | append_singleton triples triple ih =>
      obtain ⟨least, exactly⟩ := ih
      have whole : (old.add (triples ++ [triple])).labels =
          (old.add triples).labels ∪ Graph.labels [triple] := by
        rw [Graph.labels_add, Graph.labels_append, Graph.labels_add, Finset.union_assoc]
      have both := Finset.card_union_add_card_inter (old.add triples).labels (Graph.labels [triple])
      have total : ((triples ++ [triple]).map fun triple => (Graph.labels [triple]).card).sum =
          (triples.map fun triple => (Graph.labels [triple]).card).sum +
            (Graph.labels [triple]).card := by
        rw [List.map_append, List.sum_append]
        simp
      rw [whole, total, separate_append, ← exactly, Finset.disjoint_iff_inter_eq_empty,
        ← Finset.card_eq_zero]
      constructor
      · omega
      · constructor <;> omega

end Counting

section Renaming

variable {old new : Graph} {triples : List Triple}

theorem Triple.rename_id (triple : Triple) : triple.rename id = triple := by
  have resources : ∀ resource : Resource, resource.rename id = resource := by
    intro resource
    cases resource <;> rfl
  obtain ⟨subject, predicate, object⟩ := triple
  unfold Triple.rename
  rw [resources]
  cases object with
  | resource named => rw [Term.rename, resources]
  | literal value datatype language => rfl

theorem Isomorphic.of_mem {left right : Graph} (same : ∀ triple, triple ∈ left ↔ triple ∈ right) :
    Isomorphic left right :=
  ⟨id, Set.injOn_id _, fun triple => by simp [Triple.rename_id, same]⟩

theorem Isomorphic.refl (graph : Graph) : Isomorphic graph graph := .of_mem fun _ => Iff.rfl

theorem Triple.rename_comp {first second : Text → Text} (triple : Triple) :
    (triple.rename first).rename second = triple.rename (second ∘ first) := by
  have resources : ∀ resource : Resource,
      (resource.rename first).rename second = resource.rename (second ∘ first) := by
    intro resource
    cases resource <;> rfl
  obtain ⟨subject, predicate, object⟩ := triple
  simp only [Triple.rename, resources]
  cases object with
  | resource named => simp only [Term.rename, resources]
  | literal value datatype language => rfl

theorem Graph.labels_of_mem {graph : Graph} {triple : Triple} (member : triple ∈ graph) {label : Text}
    (inside : label ∈ triple.labels) : label ∈ graph.labels :=
  Graph.mem_labels.mpr ⟨triple, member, inside⟩

theorem Isomorphic.symm {left right : Graph} (same : Isomorphic left right) :
    Isomorphic right left := by
  obtain ⟨rename, injective, image⟩ := same
  let back := Function.invFunOn rename (left.labels : Set Text)
  have undone : ∀ label ∈ left.labels, back (rename label) = label := fun label member =>
    injective.leftInvOn_invFunOn member
  have returns : ∀ source ∈ left, (source.rename rename).rename back = source := by
    intro source member
    have same : source.rename (back ∘ rename) = source.rename id :=
      Triple.rename_congr fun label inside => undone label (Graph.labels_of_mem member inside)
    rw [Triple.rename_comp, same, Triple.rename_id]
  refine ⟨back, ?_, fun triple => ?_⟩
  · rw [labels_image image]
    intro first firstIn second secondIn equal
    obtain ⟨origin, member, rfl⟩ := Finset.mem_image.mp firstIn
    obtain ⟨origin', member', rfl⟩ := Finset.mem_image.mp secondIn
    rw [undone origin member, undone origin' member'] at equal
    rw [equal]
  · constructor
    · exact fun member => ⟨triple.rename rename, (image _).mpr ⟨triple, member, rfl⟩, returns triple member⟩
    · rintro ⟨source, member, rfl⟩
      obtain ⟨origin, held, rfl⟩ := (image source).mp member
      rwa [returns origin held]

/-- Isomorphic documents load alike. -/
theorem Loads.congr {left right old new : Graph} (same : Isomorphic left right)
    (loaded : Loads old right new) : Loads old left new := by
  obtain ⟨rename, injective, image⟩ := same
  obtain ⟨rename', injective', fresh, image'⟩ := loaded
  have held : ∀ label ∈ left.labels, rename label ∈ right.labels := by
    intro label member
    rw [labels_image image]
    exact Finset.mem_image_of_mem rename member
  refine ⟨rename' ∘ rename, ?_, ?_, fun triple => ?_⟩
  · intro first firstIn second secondIn equal
    exact injective firstIn secondIn
      (injective' (held first firstIn) (held second secondIn) equal)
  · exact fun label member => fresh _ (held label member)
  · rw [image']
    refine or_congr_right ?_
    constructor
    · rintro ⟨source, member, rfl⟩
      obtain ⟨origin, within, rfl⟩ := (image source).mp member
      exact ⟨origin, within, (Triple.rename_comp origin).symm⟩
    · rintro ⟨source, member, rfl⟩
      exact ⟨_, (image _).mpr ⟨source, member, rfl⟩, Triple.rename_comp source⟩

/-- A document alone in its graph is that graph. -/
theorem Loads.isomorphic {triples new : Graph} (loaded : Loads [] triples new) :
    Isomorphic triples new := by
  obtain ⟨rename, injective, -, image⟩ := loaded
  exact ⟨rename, injective, fun triple => by simp [image]⟩

theorem Isomorphic.loads {left right : Graph} (same : Isomorphic left right) : Loads [] left right := by
  obtain ⟨rename, injective, image⟩ := same
  exact ⟨rename, injective, by simp [Graph.labels], fun triple => by simp [image]⟩

theorem Isomorphic.trans {first second third : Graph} (left : Isomorphic first second)
    (right : Isomorphic second third) : Isomorphic first third :=
  (right.loads.congr left).isomorphic

theorem Isomorphic.of_rename {rename : Text → Text} (injective : Function.Injective rename)
    (graph : Graph) : Isomorphic graph (graph.map (Triple.rename rename)) :=
  ⟨rename, injective.injOn, fun _ => List.mem_map⟩

theorem Loads.refl (graph : Graph) : Loads graph [] graph :=
  ⟨id, Set.injOn_id _, by simp [Graph.labels], fun triple => by simp⟩

/-- Documents without a common blank node load one after the other as their union does. -/
theorem Loads.append {old middle new : Graph} {first second : List Triple}
    (earlier : Loads old first middle) (later : Loads middle second new)
    (apart : Disjoint (Graph.labels first) (Graph.labels second)) :
    Loads old (first ++ second) new := by
  obtain ⟨rename, injective, fresh, image⟩ := earlier
  obtain ⟨rename', injective', fresh', image'⟩ := later
  have whole := labels_loads image
  have taken : ∀ label ∈ Graph.labels first, rename label ∈ middle.labels := fun label member => by
    rw [whole]
    exact Finset.mem_union_right _ (Finset.mem_image_of_mem rename member)
  let joined : Text → Text := fun label =>
    if label ∈ Graph.labels first then rename label else rename' label
  have onFirst : ∀ label ∈ Graph.labels first, joined label = rename label := fun label member =>
    if_pos member
  have onSecond : ∀ label ∈ Graph.labels second, joined label = rename' label := fun label member =>
    if_neg (Finset.disjoint_right.mp apart member)
  refine ⟨joined, ?_, ?_, fun triple => ?_⟩
  · intro left leftIn right rightIn equal
    rw [Graph.labels_append, Finset.coe_union] at leftIn rightIn
    rcases leftIn with inFirst | inSecond <;> rcases rightIn with inFirst' | inSecond'
    · rw [onFirst left inFirst, onFirst right inFirst'] at equal
      exact injective inFirst inFirst' equal
    · rw [onFirst left inFirst, onSecond right inSecond'] at equal
      exact absurd (equal ▸ taken left inFirst) (fresh' right inSecond')
    · rw [onSecond left inSecond, onFirst right inFirst'] at equal
      exact absurd (equal ▸ taken right inFirst') (fresh' left inSecond)
    · rw [onSecond left inSecond, onSecond right inSecond'] at equal
      exact injective' inSecond inSecond' equal
  · intro label member
    rw [Graph.labels_append] at member
    rcases Finset.mem_union.mp member with inFirst | inSecond
    · rw [onFirst label inFirst]
      exact fresh label inFirst
    · rw [onSecond label inSecond]
      intro held
      refine fresh' label inSecond ?_
      rw [whole]
      exact Finset.mem_union_left _ held
  · have firsts : ∀ source ∈ first, source.rename joined = source.rename rename :=
      fun source member => Triple.rename_congr fun label inside =>
        onFirst label (Graph.labels_of_mem member inside)
    have seconds : ∀ source ∈ second, source.rename joined = source.rename rename' :=
      fun source member => Triple.rename_congr fun label inside =>
        onSecond label (Graph.labels_of_mem member inside)
    rw [image', image, or_assoc]
    refine or_congr_right ?_
    constructor
    · rintro (⟨source, member, rfl⟩ | ⟨source, member, rfl⟩)
      · exact ⟨source, List.mem_append_left _ member, firsts source member⟩
      · exact ⟨source, List.mem_append_right _ member, seconds source member⟩
    · rintro ⟨source, member, rfl⟩
      rcases List.mem_append.mp member with inFirst | inSecond
      · exact .inl ⟨source, inFirst, (firsts source inFirst).symm⟩
      · exact .inr ⟨source, inSecond, (seconds source inSecond).symm⟩

theorem LoadsEach.isomorphic (loaded : LoadsEach old triples new) (separate : Separate old triples) :
    Isomorphic (old.add triples) new := by
  induction loaded with
  | none => simpa [Graph.add] using Isomorphic.refl old
  | @next triples triple middle new earlier loaded ih =>
      obtain ⟨before, apart⟩ := separate_append.mp separate
      have whole := (ih before).loads.append loaded apart
      have same : ∀ other, other ∈ old.add (triples ++ [triple]) ↔ other ∈ old.add triples ++ [triple] :=
        fun other => by simp only [Graph.mem_add, List.mem_append, or_assoc]
      exact (Isomorphic.of_mem same).trans whole.isomorphic

/-- Triples loaded one by one give the union with the old graph, up to the names of blank nodes,
exactly if none of their blank nodes is in the old graph or in two triples. -/
theorem LoadsEach.isomorphic_iff (loaded : LoadsEach old triples new) :
    Isomorphic (old.add triples) new ↔ Separate old triples := by
  refine ⟨fun same => ?_, loaded.isomorphic⟩
  apply (card_union_iff_separate old triples).2.mp
  rw [same.card, loaded.card]

end Renaming

end Rdf
