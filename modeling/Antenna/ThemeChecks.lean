import Antenna.PipelineCore
import Antenna.ThemeResolver

/-!
The law of the theme resolver: the nearest ancestor that declares something decides it.
-/

namespace LeanAntenna

open Rdf Text Lineage Relation

/-- The graph holds the property of the term. -/
def Held (graph : Graph) (predicate : Text) (left right : Term) : Prop :=
  ∃ subject, left = .resource subject ∧ ⟨subject, predicate, right⟩ ∈ graph

def Extends (graph : Graph) : Term → Term → Prop := Held graph (designIri "extends")

/-- Through the property the theme has something with the key. -/
def Declares (graph : Graph) (property key : String) (value theme : Term) : Prop :=
  ∃ middle, Held graph (designIri property) theme middle ∧ Held graph (designIri key) middle value

def BindsTo (graph : Graph) (role token theme : Term) : Prop :=
  ∃ binding, Held graph (designIri "bindsRole") theme binding ∧
    Held graph (designIri "role") binding role ∧ Held graph (designIri "to") binding token

section Law

variable (graph : Graph) (precedes : Term → Term → Prop) (active : Term)

def RoleResolves (role token : Term) : Prop :=
  Prevails (Extends graph) precedes active (BindsTo graph role token)
    (Declares graph "bindsRole" "role" role)

def TokenResolves (token : Term) : Prop :=
  ∃ name, Prevails (Extends graph) precedes active
    (fun theme => Held graph (designIri "hasToken") theme token ∧
      Held graph (designIri "name") token name)
    (Declares graph "hasToken" "name" name)

def StrokeResolves (width : Term) : Prop :=
  Prevails (Extends graph) precedes active
    (fun theme => Held graph (designIri "strokeWidth") theme width)
    (fun theme => ∃ other, Held graph (designIri "strokeWidth") theme other)

/-- The triples of the resolved theme, for a precedence among the themes. -/
inductive Resolved (theme : Resource) : Triple → Prop where
  | theme {role token : Term} (resolves : RoleResolves graph precedes (.resource theme) role token) :
      Resolved theme (Graph.typeTriple theme (designIri "ResolvedTheme"))
  | role {role : Resource} {token : Term}
      (resolves : RoleResolves graph precedes (.resource theme) (.resource role) token) :
      Resolved theme ⟨role, designIri "resolvesTo", token⟩
  | roleToken {role : Term} {token : Resource} {property : Text} {value : Term}
      (resolves : RoleResolves graph precedes (.resource theme) role (.resource token))
      (listed : property ∈ tokenProperties) (held : ⟨token, property, value⟩ ∈ graph) :
      Resolved theme ⟨token, property, value⟩
  | token {token : Term} (resolves : TokenResolves graph precedes (.resource theme) token) :
      Resolved theme ⟨theme, designIri "hasToken", token⟩
  | tokenProperty {token : Resource} {property : Text} {value : Term}
      (resolves : TokenResolves graph precedes (.resource theme) (.resource token))
      (listed : property ∈ tokenProperties) (held : ⟨token, property, value⟩ ∈ graph) :
      Resolved theme ⟨token, property, value⟩
  | stroke {width : Term} (resolves : StrokeResolves graph precedes (.resource theme) width) :
      Resolved theme ⟨theme, designIri "strokeWidth", width⟩

end Law

section Patterns

variable {graph : Graph} {before after : Sparql.Solution ThemeVar Datum}

theorem mem_statements {source target : Datum} {predicate : Text} :
    ⟨source, Datum.iri predicate, target⟩ ∈ graph.map statementOf ↔
      ∃ left right, source = .term left ∧ target = .term right ∧ Held graph predicate left right := by
  rw [List.mem_map]
  constructor
  · rintro ⟨⟨subject, relation, object⟩, member, same⟩
    cases same
    exact ⟨_, _, rfl, rfl, subject, rfl, member⟩
  · rintro ⟨_, right, rfl, rfl, subject, rfl, member⟩
    exact ⟨_, member, rfl⟩

theorem mem_link {source target : ThemeVar} {name : String} {left : Term}
    (start : before source = some (.term left)) (free : before target = none) :
    after ∈ Sparql.eval (graph.map statementOf) (link source name target) before ↔
      ∃ right, Held graph (designIri name) left right ∧
        after = Function.update before target (some (.term right)) := by
  have known : Sparql.Solution.get before (.var source) = some (.term left) := start
  unfold link designSlot
  rw [Sparql.mem_follow known rfl free]
  constructor
  · rintro ⟨datum, member, rfl⟩
    obtain ⟨_, right, same, rfl, held⟩ := mem_statements.mp member
    cases same
    exact ⟨right, held, rfl⟩
  · rintro ⟨right, held, rfl⟩
    exact ⟨_, mem_statements.mpr ⟨left, right, rfl, rfl, held⟩, rfl⟩

theorem mem_link_bound {source target : ThemeVar} {name : String} {left right : Term}
    (start : before source = some (.term left)) (finish : before target = some (.term right)) :
    after ∈ Sparql.eval (graph.map statementOf) (link source name target) before ↔
      Held graph (designIri name) left right ∧ after = before := by
  have known : Sparql.Solution.get before (.var source) = some (.term left) := start
  have reached : Sparql.Solution.get before (.var target) = some (.term right) := finish
  unfold link designSlot
  rw [Sparql.mem_check known rfl reached]
  refine and_congr_left fun _ => ?_
  constructor
  · intro member
    obtain ⟨_, _, one, two, held⟩ := mem_statements.mp member
    cases one
    cases two
    exact held
  · exact fun held => mem_statements.mpr ⟨left, right, rfl, rfl, held⟩

theorem mem_chainTable {node level : ThemeVar} {chain : List Term} (differ : level ≠ node)
    (free : before node = none) (unset : before level = none) :
    after ∈ Sparql.eval (graph.map statementOf) (chainTable node level chain) before ↔
      ∃ (index : Nat) (theme : Term), chain[index]? = some theme ∧
        after = Function.update (Function.update before node (some (.term theme))) level
          (some (.integer index)) := by
  unfold chainTable
  rw [Sparql.mem_table differ free unset]
  constructor
  · rintro ⟨row, member, rfl⟩
    obtain ⟨⟨theme, index⟩, listed, rfl⟩ := List.mem_map.mp member
    exact ⟨index, theme, List.mem_zipIdx_iff_getElem?.mp listed, rfl⟩
  · rintro ⟨index, theme, found, rfl⟩
    exact ⟨_, List.mem_map.mpr ⟨(theme, index), List.mem_zipIdx_iff_getElem?.mpr found, rfl⟩, rfl⟩

/-- A row of the second table with something that its theme has through the property. -/
def overridden (before : Sparql.Solution ThemeVar Datum) (near : Term) (nearer : Nat) (middle : Term) :
    Sparql.Solution ThemeVar Datum :=
  Function.update (Function.update (Function.update before .md (some (.term near))) .mdDepth
    (some (.integer nearer))) .override (some (.term middle))

theorem overridden_other {near middle : Term} {nearer : Nat} {shown : ThemeVar}
    (differs : shown ≠ .md ∧ shown ≠ .mdDepth ∧ shown ≠ .override) :
    overridden before near nearer middle shown = before shown := by
  simp [overridden, Function.update_of_ne, differs]

theorem overridden_middle (near middle : Term) (nearer : Nat) :
    overridden before near nearer middle .override = some (.term middle) :=
  Function.update_self _ _ _

theorem mem_override {property : String} {chain : List Term}
    (free : before .md = none ∧ before .mdDepth = none ∧ before .override = none) :
    after ∈ Sparql.eval (graph.map statementOf)
        (.join (chainTable .md .mdDepth chain) (link .md property .override)) before ↔
      ∃ (nearer : Nat) (near middle : Term), chain[nearer]? = some near ∧
        Held graph (designIri property) near middle ∧ after = overridden before near nearer middle := by
  have start : ∀ near nearer, Function.update (Function.update before .md (some (.term near))) .mdDepth
      (some (.integer nearer)) .md = some (.term near) := by simp
  have unset : ∀ near nearer, Function.update (Function.update before .md near) .mdDepth nearer
      .override = none := by simp [free.2.2]
  rw [Sparql.mem_join]
  constructor
  · rintro ⟨row, listed, linked⟩
    obtain ⟨nearer, near, found, rfl⟩ := (mem_chainTable (by decide) free.1 free.2.1).mp listed
    obtain ⟨middle, held, rfl⟩ := (mem_link (start near nearer) (unset _ _)).mp linked
    exact ⟨nearer, near, middle, found, held, rfl⟩
  · rintro ⟨nearer, near, middle, found, held, rfl⟩
    exact ⟨_, (mem_chainTable (by decide) free.1 free.2.1).mpr ⟨nearer, near, found, rfl⟩,
      (mem_link (start near nearer) (unset _ _)).mpr ⟨middle, held, rfl⟩⟩

theorem shallower_overridden {near middle : Term} {nearer depth : Nat}
    (deep : before .depth = some (.integer depth)) :
    shallower (overridden before near nearer middle) = true ↔ nearer < depth := by
  simp [shallower, overridden, deep]

/-- No row with a smaller depth has the same key. -/
theorem not_overriding {property key : String} {shared : ThemeVar} {chain : List Term} {depth : Nat}
    {value : Term} (differs : shared ≠ .md ∧ shared ≠ .mdDepth ∧ shared ≠ .override)
    (free : before .md = none ∧ before .mdDepth = none ∧ before .override = none)
    (deep : before .depth = some (.integer depth)) (held : before shared = some (.term value)) :
    (∀ other, other ∉ Sparql.eval (graph.map statementOf) (overriding property key shared chain)
        before) ↔
      ∀ (nearer : Nat) (near : Term), chain[nearer]? = some near → nearer < depth →
        ¬ Declares graph property key value near := by
  have bound : ∀ near nearer middle, overridden before near nearer middle shared = some (.term value) :=
    fun near nearer middle => (overridden_other differs).trans held
  unfold overriding
  constructor
  · rintro absent nearer near found below ⟨middle, through, keyed⟩
    refine absent (overridden before near nearer middle) (Sparql.mem_filter.mpr ⟨?_, ?_⟩)
    · refine Sparql.mem_join.mpr ⟨_, (mem_override free).mpr ⟨nearer, near, middle, found, through, rfl⟩, ?_⟩
      exact (mem_link_bound (overridden_middle _ _ _) (bound _ _ _)).mpr ⟨keyed, rfl⟩
    · exact (shallower_overridden deep).mpr below
  · intro free' other member
    obtain ⟨joined, near⟩ := Sparql.mem_filter.mp member
    obtain ⟨row, listed, linked⟩ := Sparql.mem_join.mp joined
    obtain ⟨nearer, theme, middle, found, through, rfl⟩ := (mem_override free).mp listed
    obtain ⟨keyed, rfl⟩ := (mem_link_bound (overridden_middle _ _ _) (bound _ _ _)).mp linked
    exact free' nearer theme found ((shallower_overridden deep).mp near) ⟨middle, through, keyed⟩

/-- No row with a smaller depth has a stroke width. -/
theorem not_stroked {chain : List Term} {depth : Nat}
    (free : before .md = none ∧ before .mdDepth = none ∧ before .override = none)
    (deep : before .depth = some (.integer depth)) :
    (∀ other, other ∉ Sparql.eval (graph.map statementOf) (.filter shallower
        (.join (chainTable .md .mdDepth chain) (link .md "strokeWidth" .override))) before) ↔
      ∀ (nearer : Nat) (near : Term), chain[nearer]? = some near → nearer < depth →
        ¬ ∃ other, Held graph (designIri "strokeWidth") near other := by
  constructor
  · rintro absent nearer near found below ⟨middle, through⟩
    exact absent _ (Sparql.mem_filter.mpr
      ⟨(mem_override free).mpr ⟨nearer, near, middle, found, through, rfl⟩,
        (shallower_overridden deep).mpr below⟩)
  · intro clear other member
    obtain ⟨listed, near⟩ := Sparql.mem_filter.mp member
    obtain ⟨nearer, theme, middle, found, through, rfl⟩ := (mem_override free).mp listed
    exact clear nearer theme found ((shallower_overridden deep).mp near) ⟨middle, through⟩

/-- The listed properties of a token. -/
theorem mem_tokenValues (token : Term) (start : before .token = some (.term token))
    (free : before .tProp = none ∧ before .tVal = none) :
    after ∈ Sparql.eval (graph.map statementOf) tokenValues before ↔
      ∃ property ∈ tokenProperties, ∃ value, Held graph property token value ∧
        after = Function.update (Function.update before .tProp (some (.iri property))) .tVal
          (some (.term value)) := by
  have known : ∀ datum, Sparql.Solution.get (Function.update before .tProp datum) (.var .token) =
      some (.term token) := fun datum => start
  have along : ∀ datum, Sparql.Solution.get (Function.update before .tProp (some datum))
      (.var .tProp) = some datum := by simp [Sparql.Solution.get]
  have unset : ∀ datum, Function.update before .tProp datum .tVal = none := fun datum => free.2
  unfold tokenValues
  rw [Sparql.mem_join]
  constructor
  · rintro ⟨row, listed, linked⟩
    obtain ⟨datum, among, rfl⟩ := (Sparql.mem_column free.1).mp listed
    obtain ⟨property, member, rfl⟩ := List.mem_map.mp among
    obtain ⟨target, held, rfl⟩ := (Sparql.mem_follow (known _) (along _) (unset _)).mp linked
    obtain ⟨_, value, same, rfl, held⟩ := mem_statements.mp held
    cases same
    exact ⟨property, member, value, held, rfl⟩
  · rintro ⟨property, member, value, held, rfl⟩
    exact ⟨_, (Sparql.mem_column free.1).mpr ⟨_, List.mem_map_of_mem member, rfl⟩,
      (Sparql.mem_follow (known _) (along _) (unset _)).mpr
        ⟨_, mem_statements.mpr ⟨token, value, rfl, rfl, held⟩, rfl⟩⟩

/-- The solution of the role query before its optional part. -/
def roleRow (theme : Term) (depth : Nat) (binding role token : Term) :
    Sparql.Solution ThemeVar Datum :=
  Function.update (Function.update (Function.update (Function.update (Function.update Sparql.Solution.empty
    .ancestor (some (.term theme))) .depth (some (.integer depth))) .binding (some (.term binding)))
    .role (some (.term role))) .token (some (.term token))

theorem mem_roleRow {chain : List Term} :
    after ∈ Sparql.eval (graph.map statementOf) (.join (.join (.join
        (chainTable .ancestor .depth chain) (link .ancestor "bindsRole" .binding))
        (link .binding "role" .role)) (link .binding "to" .token)) .empty ↔
      ∃ (depth : Nat) (theme binding role token : Term), chain[depth]? = some theme ∧
        Held graph (designIri "bindsRole") theme binding ∧ Held graph (designIri "role") binding role ∧
        Held graph (designIri "to") binding token ∧ after = roleRow theme depth binding role token := by
  simp only [Sparql.mem_join]
  constructor
  · rintro ⟨third, ⟨second, ⟨row, listed, first⟩, next⟩, last⟩
    obtain ⟨depth, theme, found, rfl⟩ := (mem_chainTable (by decide) rfl rfl).mp listed
    obtain ⟨binding, binds, rfl⟩ := (mem_link rfl rfl).mp first
    obtain ⟨role, named, rfl⟩ := (mem_link rfl rfl).mp next
    obtain ⟨token, leads, rfl⟩ := (mem_link rfl rfl).mp last
    exact ⟨depth, theme, binding, role, token, found, binds, named, leads, rfl⟩
  · rintro ⟨depth, theme, binding, role, token, found, binds, named, leads, rfl⟩
    exact ⟨_, ⟨_, ⟨_, (mem_chainTable (by decide) rfl rfl).mpr ⟨depth, theme, found, rfl⟩,
      (mem_link rfl rfl).mpr ⟨binding, binds, rfl⟩⟩, (mem_link rfl rfl).mpr ⟨role, named, rfl⟩⟩,
      (mem_link rfl rfl).mpr ⟨token, leads, rfl⟩⟩

/-- The solution of the token query before its table of properties. -/
def tokenRow (theme : Term) (depth : Nat) (token name : Term) : Sparql.Solution ThemeVar Datum :=
  Function.update (Function.update (Function.update (Function.update Sparql.Solution.empty
    .ancestor (some (.term theme))) .depth (some (.integer depth))) .token (some (.term token)))
    .name (some (.term name))

theorem mem_tokenRow {chain : List Term} :
    after ∈ Sparql.eval (graph.map statementOf) (.join (.join
        (chainTable .ancestor .depth chain) (link .ancestor "hasToken" .token))
        (link .token "name" .name)) .empty ↔
      ∃ (depth : Nat) (theme token name : Term), chain[depth]? = some theme ∧
        Held graph (designIri "hasToken") theme token ∧ Held graph (designIri "name") token name ∧
        after = tokenRow theme depth token name := by
  simp only [Sparql.mem_join]
  constructor
  · rintro ⟨second, ⟨row, listed, first⟩, next⟩
    obtain ⟨depth, theme, found, rfl⟩ := (mem_chainTable (by decide) rfl rfl).mp listed
    obtain ⟨token, has, rfl⟩ := (mem_link rfl rfl).mp first
    obtain ⟨name, named, rfl⟩ := (mem_link rfl rfl).mp next
    exact ⟨depth, theme, token, name, found, has, named, rfl⟩
  · rintro ⟨depth, theme, token, name, found, has, named, rfl⟩
    exact ⟨_, ⟨_, (mem_chainTable (by decide) rfl rfl).mpr ⟨depth, theme, found, rfl⟩,
      (mem_link rfl rfl).mpr ⟨token, has, rfl⟩⟩, (mem_link rfl rfl).mpr ⟨name, named, rfl⟩⟩

def strokeRow (theme : Term) (depth : Nat) (width : Term) : Sparql.Solution ThemeVar Datum :=
  Function.update (Function.update (Function.update Sparql.Solution.empty
    .ancestor (some (.term theme))) .depth (some (.integer depth))) .sw (some (.term width))

theorem mem_strokeRow {chain : List Term} :
    after ∈ Sparql.eval (graph.map statementOf)
        (.join (chainTable .ancestor .depth chain) (link .ancestor "strokeWidth" .sw)) .empty ↔
      ∃ (depth : Nat) (theme width : Term), chain[depth]? = some theme ∧
        Held graph (designIri "strokeWidth") theme width ∧ after = strokeRow theme depth width := by
  rw [Sparql.mem_join]
  constructor
  · rintro ⟨row, listed, first⟩
    obtain ⟨depth, theme, found, rfl⟩ := (mem_chainTable (by decide) rfl rfl).mp listed
    obtain ⟨width, has, rfl⟩ := (mem_link rfl rfl).mp first
    exact ⟨depth, theme, width, found, has, rfl⟩
  · rintro ⟨depth, theme, width, found, has, rfl⟩
    exact ⟨_, (mem_chainTable (by decide) rfl rfl).mpr ⟨depth, theme, found, rfl⟩,
      (mem_link rfl rfl).mpr ⟨width, has, rfl⟩⟩

/-- A row with a listed property of its token. -/
def withToken (row : Sparql.Solution ThemeVar Datum) (property : Text) (value : Term) :
    Sparql.Solution ThemeVar Datum :=
  Function.update (Function.update row .tProp (some (.iri property))) .tVal (some (.term value))

/-- Something holds at a place of the chain and is declared at no place before it. -/
def WinsAt (chain : List Term) (holds declares : Term → Prop) : Prop :=
  ∃ (depth : Nat) (theme : Term), chain[depth]? = some theme ∧ holds theme ∧
    ∀ (nearer : Nat) (near : Term), chain[nearer]? = some near → nearer < depth → ¬ declares near

theorem mem_roleBindings {chain : List Term} :
    after ∈ Sparql.eval (graph.map statementOf) (roleBindings chain) .empty ↔
      ∃ (depth : Nat) (theme binding role token : Term), chain[depth]? = some theme ∧
        Held graph (designIri "bindsRole") theme binding ∧ Held graph (designIri "role") binding role ∧
        Held graph (designIri "to") binding token ∧
        (∀ (nearer : Nat) (near : Term), chain[nearer]? = some near → nearer < depth →
          ¬ Declares graph "bindsRole" "role" role near) ∧
        ((∃ property ∈ tokenProperties, ∃ value, Held graph property token value ∧
            after = withToken (roleRow theme depth binding role token) property value) ∨
          after = roleRow theme depth binding role token ∧ ∀ other,
            other ∉ Sparql.eval (graph.map statementOf) tokenValues after) := by
  have differs : ThemeVar.role ≠ .md ∧ ThemeVar.role ≠ .mdDepth ∧ ThemeVar.role ≠ .override := by decide
  unfold roleBindings
  rw [Sparql.mem_notExists, Sparql.mem_optional]
  constructor
  · rintro ⟨⟨row, listed, extended⟩ | ⟨listed, plain⟩, absent⟩
    · obtain ⟨depth, theme, binding, role, token, found, binds, named, leads, rfl⟩ :=
        mem_roleRow.mp listed
      obtain ⟨property, member, value, held, rfl⟩ :=
        (mem_tokenValues token rfl ⟨rfl, rfl⟩).mp extended
      exact ⟨depth, theme, binding, role, token, found, binds, named, leads,
        (not_overriding differs ⟨rfl, rfl, rfl⟩ rfl rfl).mp absent,
        Or.inl ⟨property, member, value, held, rfl⟩⟩
    · obtain ⟨depth, theme, binding, role, token, found, binds, named, leads, rfl⟩ :=
        mem_roleRow.mp listed
      exact ⟨depth, theme, binding, role, token, found, binds, named, leads,
        (not_overriding differs ⟨rfl, rfl, rfl⟩ rfl rfl).mp absent, Or.inr ⟨rfl, plain⟩⟩
  · rintro ⟨depth, theme, binding, role, token, found, binds, named, leads, free,
      ⟨property, member, value, held, rfl⟩ | ⟨rfl, plain⟩⟩
    · refine ⟨Or.inl ⟨_, mem_roleRow.mpr
        ⟨depth, theme, binding, role, token, found, binds, named, leads, rfl⟩, ?_⟩, ?_⟩
      · exact (mem_tokenValues token rfl ⟨rfl, rfl⟩).mpr ⟨property, member, value, held, rfl⟩
      · exact (not_overriding differs ⟨rfl, rfl, rfl⟩ rfl rfl).mpr free
    · refine ⟨Or.inr ⟨mem_roleRow.mpr
        ⟨depth, theme, binding, role, token, found, binds, named, leads, rfl⟩, plain⟩, ?_⟩
      exact (not_overriding differs ⟨rfl, rfl, rfl⟩ rfl rfl).mpr free

theorem tripleOf_eq_some {subject object : Term} {predicate : Text} {triple : Triple} :
    tripleOf ⟨.term subject, .iri predicate, .term object⟩ = some triple ↔
      ∃ resource, subject = .resource resource ∧ triple = ⟨resource, predicate, object⟩ := by
  cases subject with
  | resource resource =>
      constructor
      · intro same
        exact ⟨resource, rfl, (Option.some.inj same).symm⟩
      · rintro ⟨other, same, rfl⟩
        cases same
        rfl
  | literal value datatype language => simp [tripleOf]

/-- The triples that a query constructs. -/
def constructed (graph : Graph) (active : Term) (chain : List Term) (query : ResolverQuery) :
    List Triple :=
  (Sparql.construct (graph.map statementOf) (query.template active) (query.pattern chain)).filterMap
    tripleOf

theorem mem_constructed {active : Term} {chain : List Term} {query : ResolverQuery} {triple : Triple} :
    triple ∈ constructed graph active chain query ↔
      ∃ found ∈ Sparql.eval (graph.map statementOf) (query.pattern chain) .empty,
        ∃ entry ∈ query.template active, ∃ statement, found.instantiate entry = some statement ∧
          tripleOf statement = some triple := by
  simp only [constructed, List.mem_filterMap, Sparql.mem_construct]
  constructor
  · rintro ⟨statement, ⟨found, member, entry, listed, same⟩, emitted⟩
    exact ⟨found, member, entry, listed, statement, same, emitted⟩
  · rintro ⟨found, member, entry, listed, statement, same, emitted⟩
    exact ⟨statement, ⟨found, member, entry, listed, same⟩, emitted⟩

/-- A listed property that the graph holds of the token. -/
def TokenTriple (graph : Graph) (token : Term) (triple : Triple) : Prop :=
  triple ∈ graph ∧ token = .resource triple.subject ∧ triple.predicate ∈ tokenProperties

/-- The template's last statement gives the property of the row. -/
theorem token_emitted {row : Sparql.Solution ThemeVar Datum} {token value : Term} {property : Text}
    {triple : Triple} (start : row .token = some (.term token)) (listed : property ∈ tokenProperties)
    (held : Held graph property token value) :
    (∃ statement, (withToken row property value).instantiate
        ⟨.var .token, .var .tProp, .var .tVal⟩ = some statement ∧ tripleOf statement = some triple) →
      TokenTriple graph token triple := by
  rintro ⟨statement, same, emitted⟩
  obtain rfl : ⟨.term token, .iri property, .term value⟩ = statement := by
    simpa [Sparql.Solution.instantiate, Sparql.Solution.get, withToken, start] using same
  obtain ⟨resource, rfl, rfl⟩ := tripleOf_eq_some.mp emitted
  obtain ⟨subject, same, member⟩ := held
  cases same
  exact ⟨member, rfl, listed⟩

theorem emitted_token (row : Sparql.Solution ThemeVar Datum) {token : Term} {triple : Triple}
    (start : row .token = some (.term token)) (among : TokenTriple graph token triple) :
    ∃ statement, (withToken row triple.predicate triple.object).instantiate
      ⟨.var .token, .var .tProp, .var .tVal⟩ = some statement ∧ tripleOf statement = some triple := by
  refine ⟨⟨.term token, .iri triple.predicate, .term triple.object⟩, ?_, ?_⟩
  · simp [Sparql.Solution.instantiate, Sparql.Solution.get, withToken, start]
  · exact tripleOf_eq_some.mpr ⟨triple.subject, among.2.1, rfl⟩

theorem mem_roleTriples {theme : Resource} {chain : List Term} {triple : Triple} :
    triple ∈ constructed graph (.resource theme) chain .roleBindings ↔
      ∃ role token, WinsAt chain (BindsTo graph role token) (Declares graph "bindsRole" "role" role) ∧
        (triple = Graph.typeTriple theme (designIri "ResolvedTheme") ∨
          (∃ resource, role = .resource resource ∧ triple = ⟨resource, designIri "resolvesTo", token⟩) ∨
          TokenTriple graph token triple) := by
  rw [mem_constructed]
  constructor
  · rintro ⟨found, member, entry, listed, statement, same, emitted⟩
    obtain ⟨depth, ancestor, binding, role, token, here, binds, named, leads, free, shape⟩ :=
      mem_roleBindings.mp member
    have bound : found .role = some (.term role) ∧ found .token = some (.term token) := by
      rcases shape with ⟨property, _, value, _, rfl⟩ | ⟨rfl, _⟩ <;> exact ⟨rfl, rfl⟩
    refine ⟨role, token, ⟨depth, ancestor, here, ⟨binding, binds, named, leads⟩, free⟩, ?_⟩
    simp only [ResolverQuery.template, List.mem_cons, List.not_mem_nil, or_false] at listed
    rcases listed with rfl | rfl | rfl
    · cases same
      exact Or.inl (Option.some.inj emitted).symm
    · obtain rfl : ⟨.term role, .iri (designIri "resolvesTo"), .term token⟩ = statement := by
        simpa [Sparql.Solution.instantiate, Sparql.Solution.get, designSlot, bound] using same
      exact Or.inr (Or.inl (tripleOf_eq_some.mp emitted))
    · rcases shape with ⟨property, among, value, held, rfl⟩ | ⟨rfl, _⟩
      · exact Or.inr (Or.inr (token_emitted rfl among held ⟨statement, same, emitted⟩))
      · cases same
  · rintro ⟨role, token, ⟨depth, ancestor, here, ⟨binding, binds, named, leads⟩, free⟩, form⟩
    obtain ⟨found, member, isRole, isToken⟩ : ∃ found,
        found ∈ Sparql.eval (graph.map statementOf) (roleBindings chain) .empty ∧
          found .role = some (.term role) ∧ found .token = some (.term token) := by
      cases plain : Sparql.eval (graph.map statementOf) tokenValues
          (roleRow ancestor depth binding role token) with
      | nil =>
          exact ⟨_, mem_roleBindings.mpr ⟨depth, ancestor, binding, role, token, here, binds, named,
            leads, free, Or.inr ⟨rfl, by simp [plain]⟩⟩, rfl, rfl⟩
      | cons first others =>
          have member : first ∈ Sparql.eval (graph.map statementOf) tokenValues
              (roleRow ancestor depth binding role token) := by simp [plain]
          obtain ⟨property, listed, value, held, rfl⟩ :=
            (mem_tokenValues token rfl ⟨rfl, rfl⟩).mp member
          exact ⟨_, mem_roleBindings.mpr ⟨depth, ancestor, binding, role, token, here, binds, named,
            leads, free, Or.inl ⟨property, listed, value, held, rfl⟩⟩, rfl, rfl⟩
    rcases form with rfl | ⟨resource, rfl, rfl⟩ | among
    · exact ⟨found, member, _, List.mem_cons_self, _, rfl, rfl⟩
    · refine ⟨found, member, _, List.mem_cons_of_mem _ List.mem_cons_self,
        ⟨.term (.resource resource), .iri (designIri "resolvesTo"), .term token⟩, ?_, rfl⟩
      simp [Sparql.Solution.instantiate, Sparql.Solution.get, designSlot, isRole, isToken]
    · have held : Held graph triple.predicate token triple.object := ⟨_, among.2.1, among.1⟩
      have emits := emitted_token (roleRow ancestor depth binding role token) rfl among
      exact ⟨_, mem_roleBindings.mpr ⟨depth, ancestor, binding, role, token, here, binds, named,
        leads, free, Or.inl ⟨_, among.2.2, _, held, rfl⟩⟩, _,
        List.mem_cons_of_mem _ (List.mem_cons_of_mem _ List.mem_cons_self), emits⟩

theorem mem_hasToken {chain : List Term} :
    after ∈ Sparql.eval (graph.map statementOf) (hasToken chain) .empty ↔
      ∃ (depth : Nat) (theme token name : Term), chain[depth]? = some theme ∧
        Held graph (designIri "hasToken") theme token ∧ Held graph (designIri "name") token name ∧
        (∀ (nearer : Nat) (near : Term), chain[nearer]? = some near → nearer < depth →
          ¬ Declares graph "hasToken" "name" name near) ∧
        ∃ property ∈ tokenProperties, ∃ value, Held graph property token value ∧
          after = withToken (tokenRow theme depth token name) property value := by
  have differs : ThemeVar.name ≠ .md ∧ ThemeVar.name ≠ .mdDepth ∧ ThemeVar.name ≠ .override := by decide
  unfold hasToken
  rw [Sparql.mem_notExists, Sparql.mem_join]
  constructor
  · rintro ⟨⟨row, listed, extended⟩, absent⟩
    obtain ⟨depth, theme, token, name, found, has, named, rfl⟩ := mem_tokenRow.mp listed
    obtain ⟨property, member, value, held, rfl⟩ := (mem_tokenValues token rfl ⟨rfl, rfl⟩).mp extended
    exact ⟨depth, theme, token, name, found, has, named,
      (not_overriding differs ⟨rfl, rfl, rfl⟩ rfl rfl).mp absent, property, member, value, held, rfl⟩
  · rintro ⟨depth, theme, token, name, found, has, named, free, property, member, value, held, rfl⟩
    refine ⟨⟨_, mem_tokenRow.mpr ⟨depth, theme, token, name, found, has, named, rfl⟩, ?_⟩, ?_⟩
    · exact (mem_tokenValues token rfl ⟨rfl, rfl⟩).mpr ⟨property, member, value, held, rfl⟩
    · exact (not_overriding differs ⟨rfl, rfl, rfl⟩ rfl rfl).mpr free

theorem mem_tokenTriples {theme : Resource} {chain : List Term} {triple : Triple} :
    triple ∈ constructed graph (.resource theme) chain .hasToken ↔
      ∃ token, (∃ name, WinsAt chain (fun ancestor => Held graph (designIri "hasToken") ancestor token ∧
          Held graph (designIri "name") token name) (Declares graph "hasToken" "name" name)) ∧
        (triple = ⟨theme, designIri "hasToken", token⟩ ∨ TokenTriple graph token triple) := by
  rw [mem_constructed]
  constructor
  · rintro ⟨found, member, entry, listed, statement, same, emitted⟩
    obtain ⟨depth, ancestor, token, name, here, has, named, free, property, among, value, held, rfl⟩ :=
      mem_hasToken.mp member
    refine ⟨token, ⟨name, depth, ancestor, here, ⟨has, named⟩, free⟩, ?_⟩
    simp only [ResolverQuery.template, List.mem_cons, List.not_mem_nil, or_false] at listed
    rcases listed with rfl | rfl
    · cases same
      exact Or.inl (Option.some.inj emitted).symm
    · exact Or.inr (token_emitted rfl among held ⟨statement, same, emitted⟩)
  · rintro ⟨token, ⟨name, depth, ancestor, here, ⟨has, named⟩, free⟩, rfl | among⟩
    · have listed : designIri "name" ∈ tokenProperties := List.mem_map_of_mem (by decide)
      exact ⟨_, mem_hasToken.mpr ⟨depth, ancestor, token, name, here, has, named, free, _, listed, _,
        named, rfl⟩, _, List.mem_cons_self, _, rfl, rfl⟩
    · have held : Held graph triple.predicate token triple.object := ⟨_, among.2.1, among.1⟩
      exact ⟨_, mem_hasToken.mpr ⟨depth, ancestor, token, name, here, has, named, free, _, among.2.2, _,
        held, rfl⟩, _, List.mem_cons_of_mem _ List.mem_cons_self, emitted_token _ rfl among⟩

theorem mem_strokeTriples {theme : Resource} {chain : List Term} {triple : Triple} :
    triple ∈ constructed graph (.resource theme) chain .strokeWidth ↔
      ∃ width, WinsAt chain (fun ancestor => Held graph (designIri "strokeWidth") ancestor width)
          (fun ancestor => ∃ other, Held graph (designIri "strokeWidth") ancestor other) ∧
        triple = ⟨theme, designIri "strokeWidth", width⟩ := by
  rw [mem_constructed]
  simp only [ResolverQuery.pattern, strokeWidth, Sparql.mem_notExists]
  constructor
  · rintro ⟨found, ⟨member, absent⟩, entry, listed, statement, same, emitted⟩
    obtain ⟨depth, ancestor, width, here, has, rfl⟩ := mem_strokeRow.mp member
    refine ⟨width, ⟨depth, ancestor, here, has, (not_stroked ⟨rfl, rfl, rfl⟩ rfl).mp absent⟩, ?_⟩
    rw [List.mem_singleton.mp listed] at same
    cases same
    exact (Option.some.inj emitted).symm
  · rintro ⟨width, ⟨depth, ancestor, here, has, free⟩, rfl⟩
    exact ⟨_, ⟨mem_strokeRow.mpr ⟨depth, ancestor, width, here, has, rfl⟩,
      (not_stroked ⟨rfl, rfl, rfl⟩ rfl).mpr free⟩, _, List.mem_cons_self, _, rfl, rfl⟩

end Patterns

section Chain

variable {first : FirstSolution} {graph : Graph}

theorem extendsOf_listed {theme next : Term} (found : extendsOf first graph theme = some next) :
    next ∈ graph.map Triple.object := by
  obtain ⟨datum, shown, same⟩ := List.mem_filterMap.mp (first.pick_mem _ _ found)
  obtain ⟨solution, member, bound⟩ := Sparql.mem_select.mp shown
  obtain ⟨statement, held, object⟩ := Sparql.object_of_triple member
  obtain ⟨triple, inside, rfl⟩ := List.mem_map.mp held
  obtain rfl := Option.some.inj (bound.symm.trans object)
  cases same
  exact List.mem_map_of_mem inside

/-- The one-hop query finds the parents of a theme that is no blank node. -/
theorem mem_parents {theme : Term} (named : isBlank theme = false) (term : Term) :
    term ∈ (Sparql.select (graph.map statementOf) ThemeVar.p
        (.triple (querySlot theme) (designSlot "extends") (.var .p))).filterMap Datum.asTerm ↔
      Extends graph theme term := by
  have slot : querySlot theme = .value (.term theme) := by
    cases theme with
    | literal value datatype language => rfl
    | resource resource =>
        cases resource with
        | iri value => rfl
        | blank label => cases named
  rw [slot]
  constructor
  · intro member
    obtain ⟨datum, selected, same⟩ := List.mem_filterMap.mp member
    obtain ⟨solution, inside, bound⟩ := Sparql.mem_select.mp selected
    obtain ⟨target, held, rfl⟩ := (Sparql.mem_follow rfl rfl rfl).mp inside
    obtain ⟨_, right, one, rfl, holds⟩ := mem_statements.mp held
    cases one
    rw [Function.update_self] at bound
    cases bound
    cases same
    exact holds
  · intro holds
    have member : Function.update Sparql.Solution.empty ThemeVar.p (some (.term term)) ∈
        Sparql.eval (graph.map statementOf)
          (.triple (.value (.term theme)) (designSlot "extends") (.var .p)) .empty :=
      (Sparql.mem_follow rfl rfl rfl).mpr
        ⟨_, mem_statements.mpr ⟨theme, term, rfl, rfl, holds⟩, rfl⟩
    exact List.mem_filterMap.mpr ⟨.term term, Sparql.mem_select.mpr ⟨_, member, rfl⟩, rfl⟩

theorem extendsOf_some {theme next : Term} (named : isBlank theme = false)
    (found : extendsOf first graph theme = some next) : Extends graph theme next :=
  (mem_parents named next).mp (first.pick_mem _ _ found)

theorem extendsOf_none {theme : Term} (named : isBlank theme = false)
    (found : extendsOf first graph theme = none) (next : Term) : ¬ Extends graph theme next := by
  intro holds
  have member := (mem_parents named next).mpr holds
  rw [first.pick_none _ found] at member
  cases member

theorem extendsOf_iff {theme next : Term} (named : isBlank theme = false)
    (single : ∀ left right, Extends graph theme left → Extends graph theme right → left = right) :
    extendsOf first graph theme = some next ↔ Extends graph theme next := by
  constructor
  · exact extendsOf_some named
  · intro holds
    cases found : extendsOf first graph theme with
    | none => exact absurd holds (extendsOf_none named found next)
    | some other => rw [single other next (extendsOf_some named found) holds]

variable {active : Term}

variable (first) in
theorem ancestorChain_line
    (single : ∀ theme, ReflTransGen (Extends graph) active theme → ∀ left right,
      Extends graph theme left → Extends graph theme right → left = right)
    (named : ∀ theme, ReflTransGen (Extends graph) active theme → isBlank theme = false) :
    Line (Extends graph) active (ancestorChain first graph active) :=
  climb_line (fun theme reached _ => extendsOf_iff (named theme reached) (single theme reached))
    fun _ _ => extendsOf_listed

theorem activeSlot_plain {value : Text} {chain : List Term} (plain : contains value chainMark = false) :
    activeSlot (.resource (.iri value)) chain = displayTerm (.resource (.iri value)) := by
  have absent : ¬ chainMark <:+: displayTerm (.resource (.iri value)) := by
    have apart : '<' ∉ chainMark ∧ '>' ∉ chainMark := by decide
    have inside : ¬ chainMark <:+: value := by
      intro held
      rw [contains_iff.mpr held] at plain
      cases plain
    have clear : ¬ chainMark <:+: [] := by decide
    have nonempty : chainMark ≠ [] := by decide
    intro held
    rcases (infix_barrier apart.1 nonempty).mp (show chainMark <:+: [] ++ '<' :: (value ++ ['>'])
      from held) with front | behind
    · exact clear front
    · rcases (infix_barrier apart.2 nonempty).mp behind with held | rest
      · exact inside held
      · exact clear rest
  rw [activeSlot, replaceAll_self (by decide), replaceAll_absent absent]

theorem wins_iff {holds declares : Term → Prop}
    (whole : Line (Extends graph) active (ancestorChain first graph active))
    (single : ∀ theme, ReflTransGen (Extends graph) active theme → ∀ left right,
      Extends graph theme left → Extends graph theme right → left = right) :
    WinsAt (ancestorChain first graph active) holds declares ↔
      Prevails (Extends graph) (Closer (Extends graph) active) active holds declares :=
  (whole.prevails_closer_iff single).symm

end Chain

/-- All that a precedence decides, as the three queries construct it. -/
theorem resolved_iff {graph : Graph} {precedes : Term → Term → Prop} {theme : Resource}
    {triple : Triple} :
    Resolved graph precedes theme triple ↔
      (∃ role token, RoleResolves graph precedes (.resource theme) role token ∧
        (triple = Graph.typeTriple theme (designIri "ResolvedTheme") ∨
          (∃ resource, role = .resource resource ∧ triple = ⟨resource, designIri "resolvesTo", token⟩) ∨
          TokenTriple graph token triple)) ∨
      (∃ token, TokenResolves graph precedes (.resource theme) token ∧
        (triple = ⟨theme, designIri "hasToken", token⟩ ∨ TokenTriple graph token triple)) ∨
      ∃ width, StrokeResolves graph precedes (.resource theme) width ∧
        triple = ⟨theme, designIri "strokeWidth", width⟩ := by
  constructor
  · intro resolved
    cases resolved with
    | theme resolves => exact Or.inl ⟨_, _, resolves, Or.inl rfl⟩
    | role resolves => exact Or.inl ⟨_, _, resolves, Or.inr (Or.inl ⟨_, rfl, rfl⟩)⟩
    | roleToken resolves listed held =>
        exact Or.inl ⟨_, _, resolves, Or.inr (Or.inr ⟨held, rfl, listed⟩)⟩
    | token resolves => exact Or.inr (Or.inl ⟨_, resolves, Or.inl rfl⟩)
    | tokenProperty resolves listed held =>
        exact Or.inr (Or.inl ⟨_, resolves, Or.inr ⟨held, rfl, listed⟩⟩)
    | stroke resolves => exact Or.inr (Or.inr ⟨_, resolves, rfl⟩)
  · rintro (⟨role, token, resolves, rfl | ⟨resource, rfl, rfl⟩ | ⟨held, rfl, listed⟩⟩ |
      ⟨token, resolves, rfl | ⟨held, rfl, listed⟩⟩ | ⟨width, resolves, rfl⟩)
    · exact .theme resolves
    · exact .role resolves
    · exact .roleToken resolves listed held
    · exact .token resolves
    · exact .tokenProperty resolves listed held
    · exact .stroke resolves

theorem runQueries_loaded {graph : Graph} {active : Term} {chain : List Term}
    (bindable : Bindable active chain) (queries : List ResolverQuery)
    (loaded : ∀ query ∈ queries, graph.objects (.iri query.iri) (spNs ++ "text".toList) ≠ []) :
    runQueries graph active chain queries = .ok (queries.flatMap (constructed graph active chain)) := by
  induction queries with
  | nil => rfl
  | cons query rest ih =>
      have here := loaded query List.mem_cons_self
      have later := ih fun other member => loaded other (List.mem_cons_of_mem _ member)
      have fetched : fetchQueryText graph query = .ok query := if_neg here
      have ran : runConstruct graph active chain query = .ok (constructed graph active chain query) :=
        if_pos bindable
      rw [runQueries, fetched, List.flatMap_cons]
      change (do
        let triples ← runConstruct graph active chain query
        let others ← runQueries graph active chain rest
        .ok (triples ++ others)) = _
      rw [ran, later]
      rfl

/-- A theme graph with the resolver's queries in which the theme and its ancestors are no blank nodes
and have at most one parent each. -/
structure Themed (graph : Graph) (active : Text) : Prop where
  loaded : ∀ query ∈ resolverQueries, graph.objects (.iri query.iri) (spNs ++ "text".toList) ≠ []
  single : ∀ theme, ReflTransGen (Extends graph) (.resource (.iri active)) theme → ∀ left right,
    Extends graph theme left → Extends graph theme right → left = right
  named : ∀ theme, ReflTransGen (Extends graph) (.resource (.iri active)) theme → isBlank theme = false
  plain : contains active chainMark = false

theorem Themed.resolves {first : FirstSolution} {store : Dataset} {active : Text}
    (themed : Themed (store.named themeGraph) active)
    (selected : activeThemeIri first store = some (.resource (.iri active))) :
    ∃ triples, resolveActiveTheme first store = .ok triples ∧
      ∀ triple, triple ∈ triples ↔ Resolved (store.named themeGraph)
        (Closer (Extends (store.named themeGraph)) (.resource (.iri active))) (.iri active) triple := by
  have whole := ancestorChain_line first themed.single themed.named
  have bindable : Bindable (.resource (.iri active))
      (ancestorChain first (store.named themeGraph) (.resource (.iri active))) :=
    ⟨fun theme member => themed.named theme ((whole.mem_iff_ancestor themed.single).mp member),
      activeSlot_plain themed.plain⟩
  refine ⟨resolverQueries.flatMap (constructed (store.named themeGraph) (.resource (.iri active))
    (ancestorChain first (store.named themeGraph) (.resource (.iri active)))), ?_, ?_⟩
  · rw [resolveActiveTheme, selected]
    exact runQueries_loaded bindable resolverQueries themed.loaded
  · intro triple
    simp only [resolverQueries, List.flatMap_cons, List.flatMap_nil, List.append_nil, List.mem_append,
      mem_roleTriples, mem_tokenTriples, mem_strokeTriples, wins_iff whole themed.single]
    exact resolved_iff.symm

/-- The same law for another precedence that agrees on the ancestors. -/
theorem resolved_congr {graph : Graph} {left right : Term → Term → Prop} {theme : Resource}
    (agree : ∀ {holds declares : Term → Prop},
      Prevails (Extends graph) left (.resource theme) holds declares ↔
        Prevails (Extends graph) right (.resource theme) holds declares) {triple : Triple} :
    Resolved graph left theme triple ↔ Resolved graph right theme triple := by
  simp only [resolved_iff, RoleResolves, TokenResolves, StrokeResolves, agree]

/-- The nearest ancestor that declares a role, a token name or a stroke width decides it, in chains of
any length and in cycles, whatever else the store holds. Without a cycle these are the triples that
the ancestors below do not override. -/
theorem resolve_active_theme_nearest {first : FirstSolution} {store : Dataset} {active : Text}
    (themed : Themed (store.named themeGraph) active)
    (selected : activeThemeIri first store = some (.resource (.iri active))) :
    ∃ triples, resolveActiveTheme first store = .ok triples ∧
      (∀ triple, triple ∈ triples ↔ Resolved (store.named themeGraph)
        (Closer (Extends (store.named themeGraph)) (.resource (.iri active))) (.iri active) triple) ∧
      ((∀ theme, ReflTransGen (Extends (store.named themeGraph)) (.resource (.iri active)) theme →
          ¬ TransGen (Extends (store.named themeGraph)) theme theme) →
        ∀ triple, triple ∈ triples ↔ Resolved (store.named themeGraph)
          (Below (Extends (store.named themeGraph)) (.resource (.iri active))) (.iri active) triple) ∧
      ∀ otherFirst other, other.named themeGraph = store.named themeGraph →
        activeThemeIri otherFirst other = some (.resource (.iri active)) →
          ∃ same, resolveActiveTheme otherFirst other = .ok same ∧
            ∀ triple, triple ∈ same ↔ triple ∈ triples := by
  obtain ⟨triples, resolved, law⟩ := themed.resolves selected
  refine ⟨triples, resolved, law, ?_, ?_⟩
  · intro acyclic triple
    have whole := ancestorChain_line first themed.single themed.named
    rw [law, resolved_congr (whole.prevails_below_iff themed.single acyclic)]
  · intro otherFirst other agrees again
    rw [← agrees] at themed
    obtain ⟨same, done, twin⟩ := themed.resolves again
    refine ⟨same, done, fun triple => ?_⟩
    rw [twin, law, agrees]

section Sample

def headFirst : FirstSolution where
  pick := List.head?
  pick_mem _ _ found := List.mem_of_head? found
  pick_none _ found := List.head?_eq_none_iff.mp found

def sampleRole : Resource := .iri "urn:role".toList

def sampleToken : Term := .resource (.iri "urn:token".toList)

/-- An active theme that takes its one role from its parent, beside the texts of the resolver. -/
def inheritingGraph (active : Text) (parent : Resource) : Graph :=
  [Graph.typeTriple (.iri active) (designIri "Theme"),
    ⟨.iri active, designIri "active", .literal "true".toList xsdBoolean none⟩,
    ⟨.iri active, designIri "extends", .resource parent⟩,
    ⟨parent, designIri "bindsRole", .resource (.iri "urn:binding".toList)⟩,
    ⟨.iri "urn:binding".toList, designIri "role", .resource sampleRole⟩,
    ⟨.iri "urn:binding".toList, designIri "to", sampleToken⟩] ++
  resolverQueries.map fun query =>
    ⟨.iri query.iri, spNs ++ "text".toList, stringLiteral query.iri⟩

def inheritingStore (active : Text) (parent : Resource) : Dataset :=
  Dataset.empty.setNamed themeGraph (inheritingGraph active parent)

def childTheme : Text := "urn:child".toList

def parentTheme : Text := "urn:parent".toList

theorem resolve_active_theme_nearest_inherited :
    ∃ triples, resolveActiveTheme headFirst (inheritingStore childTheme (.iri parentTheme)) =
        .ok triples ∧
      ∀ triple, triple ∈ triples ↔ Resolved (inheritingGraph childTheme (.iri parentTheme))
        (Closer (Extends (inheritingGraph childTheme (.iri parentTheme)))
          (.resource (.iri childTheme))) (.iri childTheme) triple := by
  have facts : ∀ triple ∈ inheritingGraph childTheme (.iri parentTheme),
      triple.predicate = designIri "extends" → triple.object = .resource (.iri parentTheme) := by
    decide
  have parent : ∀ left right, Extends (inheritingGraph childTheme (.iri parentTheme)) left right →
      right = .resource (.iri parentTheme) := by
    rintro left right ⟨subject, -, member⟩
    exact facts _ member rfl
  have themed : Themed ((inheritingStore childTheme (.iri parentTheme)).named themeGraph)
      childTheme := by
    refine ⟨by decide, ?_, ?_, by decide⟩
    · intro theme _ left right one two
      rw [parent _ _ one, parent _ _ two]
    · intro theme reached
      cases reached with
      | refl => rfl
      | tail _ last =>
          rw [parent _ _ last]
          rfl
  have selected : activeThemeIri headFirst (inheritingStore childTheme (.iri parentTheme)) =
      some (.resource (.iri childTheme)) := by
    decide
  obtain ⟨triples, resolved, law, -⟩ := resolve_active_theme_nearest themed selected
  exact ⟨triples, resolved, law⟩

def unnamedParent : Resource := .blank "b".toList

/-- The law decides the role by the parent that has no name. -/
theorem inherited_role : Resolved (inheritingGraph childTheme unnamedParent)
    (Closer (Extends (inheritingGraph childTheme unnamedParent)) (.resource (.iri childTheme)))
    (.iri childTheme) ⟨sampleRole, designIri "resolvesTo", sampleToken⟩ := by
  have step : Extends (inheritingGraph childTheme unnamedParent) (.resource (.iri childTheme))
      (.resource unnamedParent) := ⟨_, rfl, by simp [inheritingGraph]⟩
  have silent : ∀ triple ∈ inheritingGraph childTheme unnamedParent,
      triple.subject = .iri childTheme → triple.predicate ≠ designIri "bindsRole" := by
    decide
  refine .role ⟨.resource unnamedParent, .single step, ?_, ?_⟩
  · exact ⟨.resource (.iri "urn:binding".toList), ⟨_, rfl, by simp [inheritingGraph]⟩,
      ⟨_, rfl, by simp [inheritingGraph]⟩, ⟨_, rfl, by simp [inheritingGraph]⟩⟩
  · rintro near ⟨steps, reaches, fewer⟩ ⟨middle, ⟨subject, rfl, member⟩, -⟩
    have once : steps < 1 := fewer 1 ⟨_, rfl, step⟩
    obtain rfl : steps = 0 := by omega
    cases reaches
    exact silent _ member rfl rfl

/-- A theme that extends itself overrides itself under the former rule. -/
theorem not_resolved_below : ¬ Resolved (inheritingGraph childTheme (.iri childTheme))
    (Below (Extends (inheritingGraph childTheme (.iri childTheme))) (.resource (.iri childTheme)))
    (.iri childTheme) ⟨sampleRole, designIri "resolvesTo", sampleToken⟩ := by
  have facts : ∀ triple ∈ inheritingGraph childTheme (.iri childTheme),
      (triple.predicate = designIri "extends" → triple.object = .resource (.iri childTheme)) ∧
        triple.predicate ≠ designIri "resolvesTo" := by
    decide
  have others : designIri "resolvesTo" ≠ typePredicate ∧
      designIri "resolvesTo" ≠ designIri "hasToken" ∧
      designIri "resolvesTo" ≠ designIri "strokeWidth" := by
    decide
  have step : Extends (inheritingGraph childTheme (.iri childTheme)) (.resource (.iri childTheme))
      (.resource (.iri childTheme)) := ⟨_, rfl, by simp [inheritingGraph]⟩
  rw [resolved_iff]
  rintro (⟨role, token, ⟨theme, reached, ⟨binding, binds, named, -⟩, free⟩, form⟩ |
    ⟨token, -, same | ⟨member, -⟩⟩ | ⟨width, -, same⟩)
  · have own : theme = .resource (.iri childTheme) := by
      cases reached with
      | refl => rfl
      | tail _ last =>
          obtain ⟨subject, -, member⟩ := last
          exact (facts _ member).1 rfl
    subst own
    exact free _ ⟨.refl, .single step⟩ ⟨binding, binds, named⟩
  · exact others.2.1 (Triple.mk.inj same).2.1
  · exact (facts _ member).2 rfl
  · exact others.2.2 (Triple.mk.inj same).2.1

/-- A parent without a name, or a theme whose name holds the mark of the chain, makes the queries
unreadable; and a theme that extends itself resolves the role that the former rule overrides. -/
theorem unnamed_parent_or_cycle :
    resolveActiveTheme headFirst (inheritingStore childTheme unnamedParent) = .error .parseError ∧
    Resolved (inheritingGraph childTheme unnamedParent)
      (Closer (Extends (inheritingGraph childTheme unnamedParent)) (.resource (.iri childTheme)))
      (.iri childTheme) ⟨sampleRole, designIri "resolvesTo", sampleToken⟩ ∧
    resolveActiveTheme headFirst (inheritingStore ("urn:".toList ++ chainMark) (.iri parentTheme)) =
      .error .parseError ∧
    ∃ triples, resolveActiveTheme headFirst (inheritingStore childTheme (.iri childTheme)) =
        .ok triples ∧ ⟨sampleRole, designIri "resolvesTo", sampleToken⟩ ∈ triples ∧
      ¬ Resolved (inheritingGraph childTheme (.iri childTheme))
        (Below (Extends (inheritingGraph childTheme (.iri childTheme))) (.resource (.iri childTheme)))
        (.iri childTheme) ⟨sampleRole, designIri "resolvesTo", sampleToken⟩ :=
  ⟨by decide, inherited_role, by decide, _, rfl, by decide, not_resolved_below⟩

end Sample

end LeanAntenna
