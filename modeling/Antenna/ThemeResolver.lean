import Antenna.Library.Lineage
import Antenna.Library.Rdf
import Antenna.Library.Sparql
import Antenna.ConstructGraph

/-!
The theme resolver: the walk up `design:extends` and the three queries of
`theme_resolver.spin.ttl` over the table of ancestors.
-/

namespace LeanAntenna

open Rdf Text

def themeGraph : Text := "urn:design:theme".toList

def radioNs : Text := "http://resonator.network/v2/radio#".toList

def xsdBoolean : Text := "http://www.w3.org/2001/XMLSchema#boolean".toList

def designIri (name : String) : Text := designNs ++ name.toList

/-- The variables of the resolver's queries; a blank node that is written into a query stands for one
more. -/
inductive ThemeVar where
  | radio | t | p | ancestor | depth | binding | role | token | md | mdDepth | override
  | tProp | tVal | name | sw
  | label (label : Text)
deriving DecidableEq

/-- What a variable is bound to: an RDF term or a number of the table. -/
inductive Datum where
  | term (term : Term)
  | integer (value : Nat)
deriving DecidableEq, Repr

namespace Datum

def iri (value : Text) : Datum := .term (.resource (.iri value))

def asTerm : Datum → Option Term
  | .term inner => some inner
  | .integer _ => none

end Datum

abbrev ThemePattern := Sparql.Pattern ThemeVar Datum

abbrev ThemeSlot := Sparql.Slot ThemeVar Datum

def statementOf (triple : Triple) : Sparql.Statement Datum :=
  ⟨.term (.resource triple.subject), .iri triple.predicate, .term triple.object⟩

/-- What CONSTRUCT emits is a triple. -/
def tripleOf : Sparql.Statement Datum → Option Triple
  | ⟨.term (.resource subject), .term (.resource (.iri predicate)), .term object⟩ =>
      some ⟨subject, predicate, object⟩
  | _ => none

def designSlot (name : String) : ThemeSlot := .value (.iri (designIri name))

/-- A property of the design vocabulary between two variables. -/
def link (source : ThemeVar) (name : String) (target : ThemeVar) : ThemePattern :=
  .triple (.var source) (designSlot name) (.var target)

/-- A term as `format!` writes it into a query, where a blank node is a variable. -/
def querySlot : Term → ThemeSlot
  | .resource (.blank label) => .var (.label label)
  | term => .value (.term term)

/-- The first solution of a query; which one it is, is the engine's choice. -/
structure FirstSolution where
  pick : List Term → Option Term
  pick_mem : ∀ terms term, pick terms = some term → term ∈ terms
  pick_none : ∀ terms, pick terms = none → terms = []

inductive ResolveError where
  | notFound (message : Text)
  | parseError
deriving DecidableEq, Repr

section Selection

variable (first : FirstSolution)

def firstBinding (graph : Graph) (shown : ThemeVar) (pattern : ThemePattern) : Option Term :=
  first.pick ((Sparql.select (graph.map statementOf) shown pattern).filterMap Datum.asTerm)

/-- The radio's theme in the default graph wins over the active one of the theme graph. -/
def activeThemeIri (store : Dataset) : Option Term :=
  match firstBinding first store.default .t
      (.triple (.var .radio) (.value (.iri (radioNs ++ "hasTheme".toList))) (.var .t)) with
  | some theme => some theme
  | none =>
      firstBinding first (store.named themeGraph) .t
        (.join (.triple (.var .t) (.value (.iri typePredicate)) (designSlot "Theme"))
          (.triple (.var .t) (designSlot "active")
            (.value (.term (.literal "true".toList xsdBoolean none)))))

def extendsOf (graph : Graph) (current : Term) : Option Term :=
  firstBinding first graph .p (.triple (querySlot current) (designSlot "extends") (.var .p))

/-- The chain that `ancestor_chain_values` walks; no walk is longer than the graph. -/
def ancestorChain (graph : Graph) (active : Term) : List Term :=
  Lineage.climb (extendsOf first graph) (graph.map Triple.object).length [] active

end Selection

/-- The rows of the table as they are written into the queries. -/
def chainValues (chain : List Term) : Text :=
  List.intercalate " ".toList (chain.zipIdx.map fun row =>
    '(' :: displayTerm row.1 ++ ' ' :: (toString row.2).toList ++ ")".toList)

def activeMark : Text := "@@ACTIVE@@".toList

def chainMark : Text := "@@CHAIN@@".toList

/-- What `bind_query` leaves in the place of `@@ACTIVE@@`: the second replacement runs over the theme
that the first one put there. -/
def activeSlot (active : Term) (chain : List Term) : Text :=
  replaceAll chainMark (chainValues chain) (replaceAll activeMark (displayTerm active) activeMark)

def isBlank : Term → Bool
  | .resource (.blank _) => true
  | _ => false

/-- The bound query is SPARQL: inline data hold no blank node, and the theme stands as it was. -/
def Bindable (active : Term) (chain : List Term) : Prop :=
  (∀ term ∈ chain, isBlank term = false) ∧ activeSlot active chain = displayTerm active

instance (active : Term) (chain : List Term) : Decidable (Bindable active chain) :=
  inferInstanceAs (Decidable (_ ∧ _))

def tokenProperties : List Text :=
  ["hex", "alpha", "name", "svgPath", "viewBox", "weight", "size", "lineHeight", "fill", "family",
    "px", "tracking", "case", "italic"].map designIri

inductive ResolverQuery where
  | roleBindings
  | hasToken
  | strokeWidth
deriving DecidableEq, Repr

def resolverQueries : List ResolverQuery := [.roleBindings, .hasToken, .strokeWidth]

section Queries

def chainTable (node level : ThemeVar) (chain : List Term) : ThemePattern :=
  .values [node, level] ((chain.zipIdx.map fun row => (Datum.term row.1, Datum.integer row.2)).map
    fun row => [row.1, row.2])

/-- `FILTER(?mdDepth < ?depth)`. -/
def shallower (solution : Sparql.Solution ThemeVar Datum) : Bool :=
  match solution .mdDepth, solution .depth with
  | some (.integer near), some (.integer far) => near < far
  | _, _ => false

def tokenValues : ThemePattern :=
  .join (.values [.tProp] ((tokenProperties.map Datum.iri).map fun property => [property]))
    (.triple (.var .token) (.var .tProp) (.var .tVal))

/-- A row with a smaller depth that has the same key through the property. -/
def overriding (property key : String) (shared : ThemeVar) (chain : List Term) : ThemePattern :=
  .filter shallower
    (.join (.join (chainTable .md .mdDepth chain) (link .md property .override))
      (link .override key shared))

def roleBindings (chain : List Term) : ThemePattern :=
  .notExists
    (.optional
      (.join (.join (.join (chainTable .ancestor .depth chain) (link .ancestor "bindsRole" .binding))
        (link .binding "role" .role)) (link .binding "to" .token))
      tokenValues)
    (overriding "bindsRole" "role" .role chain)

def hasToken (chain : List Term) : ThemePattern :=
  .notExists
    (.join (.join (.join (chainTable .ancestor .depth chain) (link .ancestor "hasToken" .token))
      (link .token "name" .name)) tokenValues)
    (overriding "hasToken" "name" .name chain)

def strokeWidth (chain : List Term) : ThemePattern :=
  .notExists
    (.join (chainTable .ancestor .depth chain) (link .ancestor "strokeWidth" .sw))
    (.filter shallower
      (.join (chainTable .md .mdDepth chain) (link .md "strokeWidth" .override)))

namespace ResolverQuery

def iri : ResolverQuery → Text
  | .roleBindings => "urn:resolver:theme/role-bindings".toList
  | .hasToken => "urn:resolver:theme/has-token".toList
  | .strokeWidth => "urn:resolver:theme/stroke-width".toList

def pattern : ResolverQuery → List Term → ThemePattern
  | .roleBindings => LeanAntenna.roleBindings
  | .hasToken => LeanAntenna.hasToken
  | .strokeWidth => LeanAntenna.strokeWidth

def template (active : Term) : ResolverQuery → List (Sparql.Statement ThemeSlot)
  | .roleBindings =>
      [⟨.value (.term active), .value (.iri typePredicate), designSlot "ResolvedTheme"⟩,
        ⟨.var .role, designSlot "resolvesTo", .var .token⟩,
        ⟨.var .token, .var .tProp, .var .tVal⟩]
  | .hasToken =>
      [⟨.value (.term active), designSlot "hasToken", .var .token⟩,
        ⟨.var .token, .var .tProp, .var .tVal⟩]
  | .strokeWidth => [⟨.value (.term active), designSlot "strokeWidth", .var .sw⟩]

end ResolverQuery

end Queries

/-- Where the store holds a text for the query it is the one that the resolver ships. -/
def fetchQueryText (graph : Graph) (query : ResolverQuery) : Except ResolveError ResolverQuery :=
  if graph.objects (.iri query.iri) (spNs ++ "text".toList) = [] then
    .error (.notFound ("resolver query not found: ".toList ++ query.iri))
  else .ok query

def runConstruct (graph : Graph) (active : Term) (chain : List Term) (query : ResolverQuery) :
    Except ResolveError (List Triple) :=
  if Bindable active chain then
    .ok ((Sparql.construct (graph.map statementOf) (query.template active)
      (query.pattern chain)).filterMap tripleOf)
  else .error .parseError

def runQueries (graph : Graph) (active : Term) (chain : List Term) :
    List ResolverQuery → Except ResolveError (List Triple)
  | [] => .ok []
  | query :: rest => do
      let fetched ← fetchQueryText graph query
      let triples ← runConstruct graph active chain fetched
      let others ← runQueries graph active chain rest
      .ok (triples ++ others)

def resolveActiveTheme (first : FirstSolution) (store : Dataset) :
    Except ResolveError (List Triple) :=
  match activeThemeIri first store with
  | none => .ok []
  | some active =>
      runQueries (store.named themeGraph) active
        (ancestorChain first (store.named themeGraph) active) resolverQueries

end LeanAntenna
