import Antenna.Library.RdfBlank
import Antenna.Library.TurtleTable

/-!
Documents laid out in rows: what a document means whose rows are documents themselves, when each row
is loaded on its own.
-/

namespace Turtle

open Text Rdf

section Shifting

def Node.shift (count : Nat) : Node → Node
  | .anonymous index => .anonymous (count + index)
  | node => node

def NamedTriple.shift (count : Nat) (named : NamedTriple) : NamedTriple :=
  ⟨named.subject.shift count, named.predicate, named.object.shift count⟩

def Item.shift (count : Nat) : Item → Item
  | .directive declared => .directive declared
  | .triple named => .triple (named.shift count)

theorem Item.shift_zero (item : Item) : item.shift 0 = item := by
  have nodes : ∀ node : Node, node.shift 0 = node := by
    intro node
    cases node <;> simp [Node.shift]
  cases item with
  | directive declared => rfl
  | triple named => simp only [Item.shift, NamedTriple.shift, nodes]

/-- The labels of later anonymous nodes; labels that are written stay. -/
def shiftLabel (count : Nat) : Text → Text
  | '_' :: label => '_' :: label
  | label => List.replicate count '*' ++ label

/-- The label of a blank node in the graph. -/
def Node.label : Node → Option Text
  | .blank label => some ('_' :: label)
  | .anonymous index => some (List.replicate index '*')
  | _ => none

def Node.isAnonymous : Node → Bool
  | .anonymous _ => true
  | _ => false

def NamedTriple.nodes (named : NamedTriple) : List Node := [named.subject, named.object]

theorem shiftLabel_injective (count : Nat) : Function.Injective (shiftLabel count) := by
  have cases : ∀ label, (∃ rest, label = '_' :: rest ∧ shiftLabel count label = label) ∨
      (label.head? ≠ some '_' ∧ shiftLabel count label = List.replicate count '*' ++ label) := by
    intro label
    by_cases written : ∃ rest, label = '_' :: rest
    · obtain ⟨rest, rfl⟩ := written
      exact .inl ⟨rest, rfl, rfl⟩
    · refine .inr ⟨fun opens => ?_, ?_⟩
      · obtain ⟨rest, split⟩ := List.head?_eq_some_iff.mp opens
        exact written ⟨rest, split⟩
      · rw [shiftLabel]
        intro rest split
        exact written ⟨rest, split⟩
  have other : ∀ rest label : Text, label.head? ≠ some '_' →
      '_' :: rest ≠ List.replicate count '*' ++ label := by
    intro rest label unmarked same
    cases count with
    | zero =>
        rw [List.replicate_zero, List.nil_append] at same
        exact unmarked (by rw [← same]; rfl)
    | succ count =>
        rw [List.replicate_succ, List.cons_append] at same
        exact absurd (List.cons.inj same).1 (by decide)
  intro left right same
  rcases cases left with ⟨rest, split, kept⟩ | ⟨unmarked, moved⟩ <;>
    rcases cases right with ⟨rest', split', kept'⟩ | ⟨unmarked', moved'⟩
  · rw [kept, kept'] at same
    exact same
  · rw [kept, moved', split] at same
    exact absurd same (other rest right unmarked')
  · rw [moved, kept', split'] at same
    exact absurd same.symm (other rest' left unmarked)
  · rw [moved, moved'] at same
    exact List.append_cancel_left same

theorem Node.label_shift (count : Nat) (node : Node) :
    (node.shift count).label = node.label.map (shiftLabel count) := by
  cases node with
  | anonymous index =>
      simp only [Node.shift, Node.label, Option.map_some, Option.some.injEq]
      rw [List.replicate_add]
      cases index <;> rfl
  | _ => rfl

variable (grammar : Grammar) (environment : Environment)

theorem Grammar.term_shift (count : Nat) (node : Node) :
    grammar.term environment (node.shift count) =
      (grammar.term environment node).map (Rdf.Term.rename (shiftLabel count)) := by
  cases node with
  | name name =>
      simp only [Node.shift, Grammar.term, Option.map_map]
      rfl
  | blank label => rfl
  | anonymous index =>
      simp only [Node.shift, Grammar.term, Option.map_some, Option.some.injEq]
      rw [List.replicate_add]
      cases index <;> rfl
  | literal value suffix =>
      cases suffix with
      | plain => rfl
      | language tag => rfl
      | typed datatype =>
          simp only [Node.shift, Grammar.term, Option.map_map]
          rfl

theorem asResource_rename (rename : Text → Text) (term : Rdf.Term) :
    (term.rename rename).asResource = term.asResource.map (Resource.rename rename) := by
  cases term <;> rfl

theorem Grammar.triple_shift (count : Nat) (named : NamedTriple) :
    grammar.triple environment (named.shift count) =
      (grammar.triple environment named).map (Triple.rename (shiftLabel count)) := by
  unfold Grammar.triple NamedTriple.shift
  simp only [grammar.term_shift, Option.bind_eq_bind]
  cases grammar.term environment named.subject with
  | none => rfl
  | some subject =>
      simp only [Option.map_some, Option.bind_some, asResource_rename]
      cases subject.asResource with
      | none => rfl
      | some resource =>
          cases grammar.iri environment named.predicate with
          | none => rfl
          | some predicate =>
              cases grammar.term environment named.object with
              | none => rfl
              | some object => rfl

theorem Grammar.graph_shift (count : Nat) (items : List Item) :
    grammar.graph environment (items.map (Item.shift count)) =
      (grammar.graph environment items).map (List.map (Triple.rename (shiftLabel count))) := by
  induction items generalizing environment with
  | nil => rfl
  | cons item items ih =>
      cases item with
      | directive directive =>
          rw [List.map_cons, Item.shift, Grammar.graph, Grammar.graph]
          cases grammar.declare environment directive with
          | none => rfl
          | some next => exact ih next
      | triple named =>
          rw [List.map_cons, Item.shift, Grammar.graph, Grammar.graph, grammar.triple_shift, ih]
          cases grammar.triple environment named with
          | none => rfl
          | some triple =>
              simp only [Option.map_some, Option.bind_some, Option.map_map]
              rfl

/-- Triples in front of other items add to their graph. -/
theorem Grammar.graph_triples (triples : List NamedTriple) (items : List Item) :
    grammar.graph environment (triples.map .triple ++ items) =
      (grammar.graph environment (triples.map .triple)).bind fun own =>
        (grammar.graph environment items).map (own ++ ·) := by
  induction triples with
  | nil =>
      simp only [List.map_nil, List.nil_append, Grammar.graph, Option.bind_some]
      exact Option.map_id'.symm
  | cons named triples ih =>
      rw [List.map_cons, List.cons_append, Grammar.graph, Grammar.graph, ih]
      cases grammar.triple environment named with
      | none => rfl
      | some triple =>
          simp only [Option.bind_some]
          cases grammar.graph environment (triples.map .triple) with
          | none => rfl
          | some own =>
              simp only [Option.bind_some, Option.map_some, Option.map_map]
              rfl

variable {grammar environment}

theorem Grammar.term_labels {node : Node} {term : Rdf.Term}
    (denotes : grammar.term environment node = some term) : term.labels = node.label.toList := by
  cases node with
  | name name =>
      obtain ⟨iri, _, rfl⟩ := Option.map_eq_some_iff.mp denotes
      rfl
  | blank label =>
      cases denotes
      rfl
  | anonymous index =>
      cases denotes
      rfl
  | literal value suffix =>
      cases suffix with
      | plain =>
          cases denotes
          rfl
      | language tag =>
          cases denotes
          rfl
      | typed datatype =>
          obtain ⟨iri, _, rfl⟩ := Option.map_eq_some_iff.mp denotes
          rfl

theorem Grammar.triple_labels {named : NamedTriple} {triple : Triple}
    (denotes : grammar.triple environment named = some triple) :
    triple.labels = named.nodes.flatMap fun node => node.label.toList := by
  simp only [Grammar.triple, Option.bind_eq_bind, Option.bind_eq_some_iff, Option.some.injEq] at denotes
  obtain ⟨subject, subjectIs, resource, known, predicate, _, object, objectIs, rfl⟩ := denotes
  have resources : resource.labels = subject.labels := by
    cases subject with
    | resource own =>
        cases known
        rfl
    | literal value datatype language => cases known
  simp only [Triple.labels, NamedTriple.nodes, List.flatMap_cons, List.flatMap_nil, List.append_nil,
    resources, Grammar.term_labels subjectIs, Grammar.term_labels objectIs]

theorem Grammar.graph_labels {triples : List NamedTriple} {graph : Graph}
    (denotes : grammar.graph environment (triples.map .triple) = some graph) {label : Text}
    (member : label ∈ graph.labels) :
    ∃ named ∈ triples, ∃ node ∈ named.nodes, node.label = some label := by
  induction triples generalizing graph with
  | nil =>
      cases denotes
      simp at member
  | cons named triples ih =>
      rw [List.map_cons, Grammar.graph] at denotes
      obtain ⟨triple, own, later⟩ := Option.bind_eq_some_iff.mp denotes
      obtain ⟨rest, others, rfl⟩ := Option.map_eq_some_iff.mp later
      obtain ⟨holder, held, inside⟩ := Graph.mem_labels.mp member
      rcases List.mem_cons.mp held with rfl | later
      · rw [Grammar.triple_labels own, List.mem_flatMap] at inside
        obtain ⟨node, listed, labelled⟩ := inside
        exact ⟨named, List.mem_cons_self, node, listed, Option.mem_toList.mp labelled⟩
      · obtain ⟨other, within, node, listed, labelled⟩ :=
          ih others (Graph.mem_labels.mpr ⟨holder, later, inside⟩)
        exact ⟨other, List.mem_cons_of_mem _ within, node, listed, labelled⟩

end Shifting

section Rows

/-- The label with which a node is written. -/
def Node.written : Node → Option Text
  | .blank label => some label
  | _ => none

def writtenLabels (triples : List NamedTriple) : List Text :=
  triples.flatMap fun named => named.nodes.filterMap Node.written

/-- What holds of Turtle: a row of triples that is a document by itself is read by itself in front of
other rows, where anonymous nodes are numbered on, and white space around it does not matter. -/
structure Grammar.ReadsRows (grammar : Grammar) : Prop where
  empty : grammar.items [] = some []
  comment : ∀ text : Text, '\n' ∉ text → '\r' ∉ text → grammar.items ('#' :: text) = some []
  directive : ∀ text items, grammar.items ('@' :: text) = some items →
    ∃ declared rest, items = .directive declared :: rest
  trimmed : ∀ (row : Text) (triples : List NamedTriple), '\n' ∉ row →
    grammar.items row = some (triples.map .triple) →
    grammar.items (trim row) = some (triples.map .triple)
  row : ∀ (row rest : Text) (triples : List NamedTriple), '\n' ∉ row →
    grammar.items row = some (triples.map .triple) → ∃ count,
      (∀ named ∈ triples, ∀ index, .anonymous index ∈ named.nodes → index < count) ∧
      grammar.items (row ++ '\n' :: rest) =
        (grammar.items rest).map fun later => triples.map .triple ++ later.map (Item.shift count)

/-- Each row is a document of its own, and no blank node label is written in two of them. -/
structure Laid (grammar : Grammar) (rows : List Text) (read : List (List NamedTriple)) : Prop where
  complete : List.Forall₂
    (fun row triples => '\n' ∉ row ∧ grammar.items row = some (triples.map .triple)) rows read
  apart : read.Pairwise fun left right => ∀ label ∈ writtenLabels left, label ∉ writtenLabels right

def joinRows (rows : List Text) : Text := rows.flatMap (· ++ ['\n'])

/-- Each row's graph is loaded as a document of its own. -/
inductive LoadsRows (grammar : Grammar) (environment : Environment) :
    Graph → List (List NamedTriple) → Graph → Prop where
  | none (graph : Graph) : LoadsRows grammar environment graph [] graph
  | next {old middle new own : Graph} {row : List NamedTriple} {rows : List (List NamedTriple)}
      (denotes : grammar.graph environment (row.map .triple) = some own) (loaded : Loads old own middle)
      (later : LoadsRows grammar environment middle rows new) :
      LoadsRows grammar environment old (row :: rows) new

variable {grammar : Grammar} {environment : Environment} {rows : List Text}
  {read : List (List NamedTriple)}

theorem mem_writtenLabels {triples : List NamedTriple} {label : Text} :
    label ∈ writtenLabels triples ↔ ∃ named ∈ triples, Node.blank label ∈ named.nodes := by
  simp only [writtenLabels, List.mem_flatMap, List.mem_filterMap]
  refine exists_congr fun named => and_congr_right fun _ => ?_
  constructor
  · rintro ⟨node, listed, writes⟩
    cases node with
    | blank label' =>
        cases writes
        exact listed
    | _ => cases writes
  · exact fun listed => ⟨_, listed, rfl⟩

theorem blank_of_shift {count : Nat} {named : NamedTriple} {label : Text}
    (listed : .blank label ∈ (named.shift count).nodes) : .blank label ∈ named.nodes := by
  have same : ∀ node : Node, Node.blank label = node.shift count → Node.blank label = node := by
    intro node
    cases node <;> simp [Node.shift]
  simp only [NamedTriple.shift, NamedTriple.nodes, List.mem_cons, List.not_mem_nil, or_false] at listed ⊢
  exact listed.imp (same _) (same _)

theorem joinRows_cons (row : Text) (rows : List Text) :
    joinRows (row :: rows) = row ++ '\n' :: joinRows rows := by
  simp [joinRows]

/-- The rows together are triples, with the labels that their rows write. -/
theorem items_joinRows (reads : grammar.ReadsRows) (laid : Laid grammar rows read) :
    ∃ triples, grammar.items (joinRows rows) = some (triples.map .triple) ∧
      ∀ label ∈ writtenLabels triples, ∃ row ∈ read, label ∈ writtenLabels row := by
  obtain ⟨complete, -⟩ := laid
  induction complete with
  | nil => exact ⟨[], reads.empty, by simp [writtenLabels]⟩
  | @cons row own rows read first later ih =>
      obtain ⟨triples, items, labels⟩ := ih
      obtain ⟨count, -, split⟩ := reads.row row (joinRows rows) own first.1 first.2
      refine ⟨own ++ triples.map (NamedTriple.shift count), ?_, fun label member => ?_⟩
      · rw [joinRows_cons, split, items, Option.map_some, List.map_append, List.map_map, List.map_map]
        rfl
      · obtain ⟨named, within, listed⟩ := mem_writtenLabels.mp member
        rcases List.mem_append.mp within with inOwn | inLater
        · exact ⟨own, List.mem_cons_self, mem_writtenLabels.mpr ⟨named, inOwn, listed⟩⟩
        · obtain ⟨source, held, rfl⟩ := List.mem_map.mp inLater
          obtain ⟨holder, inRead, writes⟩ :=
            labels label (mem_writtenLabels.mpr ⟨source, held, blank_of_shift listed⟩)
          exact ⟨holder, List.mem_cons_of_mem _ inRead, writes⟩

/-- Nodes of a row have other labels in the graph than later nodes that are numbered on. -/
theorem label_ne_shift {count : Nat} {node later : Node} {label : Text}
    (numbered : ∀ index, node = .anonymous index → index < count)
    (apart : ∀ label, node = .blank label → later ≠ .blank label) (own : node.label = some label) :
    (later.shift count).label ≠ some label := by
  intro same
  cases node with
  | blank name =>
      cases own
      cases later with
      | blank other =>
          cases same
          exact apart name rfl rfl
      | anonymous index =>
          have starred := Option.some.inj same
          have member : '_' ∈ List.replicate (count + index) '*' := by
            rw [starred]
            exact List.mem_cons_self
          exact absurd (List.eq_of_mem_replicate member) (by decide)
      | _ => cases same
  | anonymous index =>
      have small := numbered index rfl
      cases own
      cases later with
      | blank other =>
          have starred := Option.some.inj same
          have member : '_' ∈ List.replicate index '*' := by
            rw [← starred]
            exact List.mem_cons_self
          exact absurd (List.eq_of_mem_replicate member) (by decide)
      | anonymous other =>
          have lengths := congrArg List.length (Option.some.inj same)
          rw [List.length_replicate, List.length_replicate] at lengths
          omega
      | _ => cases same
  | _ => cases own

theorem joinRows_splitOn (text : Text) : joinRows (text.splitOn '\n') = text ++ ['\n'] := by
  have joined : ∀ rows : List Text, rows ≠ [] → joinRows rows = ['\n'].intercalate rows ++ ['\n'] := by
    intro rows nonempty
    induction rows with
    | nil => exact absurd rfl nonempty
    | cons row rows ih =>
        cases rows with
        | nil => simp [joinRows]
        | cons next rows =>
            rw [joinRows_cons, ih (List.cons_ne_nil _ _), List.intercalate_cons_cons]
            simp
  rw [joined _ (List.splitOn_ne_nil _ _), List.intercalate_splitOn]

/-- The rows of a document that denotes a graph denote graphs. -/
theorem Laid.denotes (reads : grammar.ReadsRows) (laid : Laid grammar rows read) {graph : Graph}
    (denoted : grammar.denotes environment (joinRows rows) = some graph) :
    ∀ triples ∈ read, ∃ own, grammar.graph environment (triples.map .triple) = some own := by
  obtain ⟨complete, -⟩ := laid
  induction complete generalizing graph with
  | nil => simp
  | @cons row own rows read first later ih =>
      obtain ⟨count, -, split⟩ := reads.row row (joinRows rows) own first.1 first.2
      rw [Grammar.denotes, joinRows_cons, split, Option.bind_map] at denoted
      obtain ⟨items, rest, known⟩ := Option.bind_eq_some_iff.mp denoted
      rw [Function.comp_apply, Grammar.graph_triples, Grammar.graph_shift] at known
      obtain ⟨ownGraph, denotes, others⟩ := Option.bind_eq_some_iff.mp known
      obtain ⟨shifted, rename, -⟩ := Option.map_eq_some_iff.mp others
      obtain ⟨restGraph, behind, -⟩ := Option.map_eq_some_iff.mp rename
      have whole : grammar.denotes environment (joinRows rows) = some restGraph := by
        rw [Grammar.denotes, rest, Option.bind_some, behind]
      intro triples member
      rcases List.mem_cons.mp member with rfl | within
      · exact ⟨ownGraph, denotes⟩
      · exact ih whole triples within

/-- A document whose rows are documents means what its rows mean one after the other. -/
theorem loadsRows_document (reads : grammar.ReadsRows) (laid : Laid grammar rows read) {graph : Graph}
    (denoted : grammar.denotes environment (joinRows rows) = some graph) {old new : Graph}
    (loaded : LoadsRows grammar environment old read new) : Loads old graph new := by
  induction rows generalizing read graph old with
  | nil =>
      obtain ⟨complete, -⟩ := laid
      cases complete
      cases loaded
      have items : grammar.items (joinRows []) = some [] := reads.empty
      rw [Grammar.denotes, items] at denoted
      cases denoted
      exact Loads.refl _
  | cons row rows ih =>
      obtain ⟨complete, apart⟩ := laid
      cases complete with
      | @cons _ triples _ read first later =>
          cases loaded with
          | @next _ middle _ own _ _ denotes ownLoaded laterLoaded =>
              have tail : Laid grammar rows read := ⟨later, (List.pairwise_cons.mp apart).2⟩
              obtain ⟨count, numbered, split⟩ := reads.row row (joinRows rows) triples first.1 first.2
              obtain ⟨others, items, labels⟩ := items_joinRows reads tail
              rw [Grammar.denotes, joinRows_cons, split, items, Option.map_some, Option.bind_some,
                Grammar.graph_triples, denotes, Option.bind_some, Grammar.graph_shift,
                Option.map_map] at denoted
              obtain ⟨rest, known, rfl⟩ := Option.map_eq_some_iff.mp denoted
              have whole : grammar.denotes environment (joinRows rows) = some rest := by
                rw [Grammar.denotes, items, Option.bind_some, known]
              have same := (Isomorphic.of_rename (shiftLabel_injective count) rest).symm
              refine ownLoaded.append ((ih tail whole laterLoaded).congr same) ?_
              rw [Finset.disjoint_left]
              intro label inOwn inLater
              obtain ⟨named, within, node, listed, labelled⟩ := Grammar.graph_labels denotes inOwn
              rw [labels_image fun triple => List.mem_map, Finset.mem_image] at inLater
              obtain ⟨origin, inRest, rfl⟩ := inLater
              obtain ⟨other, inOthers, node', listed', labelled'⟩ := Grammar.graph_labels known inRest
              have shifted : (node'.shift count).label = some (shiftLabel count origin) := by
                rw [Node.label_shift, labelled']
                rfl
              refine label_ne_shift (fun index same => ?_) (fun name same same' => ?_) labelled shifted
              · exact numbered named within index (same ▸ listed)
              · obtain ⟨holder, inRead, writes⟩ :=
                  labels name (mem_writtenLabels.mpr ⟨other, inOthers, same' ▸ listed'⟩)
                refine (List.pairwise_cons.mp apart).1 holder inRead name ?_ writes
                exact mem_writtenLabels.mpr ⟨named, within, same ▸ listed⟩

end Rows

namespace StatementTable

/-- No statement begins another, each ends in a dot, and none has anonymous nodes. -/
structure Rowwise (table : StatementTable) : Prop where
  known : ∀ left ∈ table.entries, ∀ right ∈ table.entries, left.1 <+: right.1 → left = right
  dotted : ∀ entry ∈ table.entries, entry.1.getLast? = some '.'
  named : ∀ entry ∈ table.entries, ∀ named ∈ entry.2, ∀ node ∈ named.nodes, node.isAnonymous = false

variable {table : StatementTable}

section Items

variable {text start : Text}

theorem items_nil : table.grammar.items [] = some [] := rfl

theorem items_comment (comment : Text) :
    table.grammar.items ('#' :: comment) = table.grammar.items (comment.dropWhile (· ≠ '\n')) := by
  have shorter := (List.dropWhile_suffix (· ≠ '\n') :
    comment.dropWhile (· ≠ '\n') <:+ comment).length_le
  have fuel : ('#' :: comment).length ≤ comment.length + 1 := by simp
  rw [← items_enough fuel, ← items_enough shorter]
  rfl

theorem items_directive (rest : Text) :
    table.grammar.items ('@' :: rest) =
      (readDirective ('@' :: rest)).bind fun (directive, rest) =>
        (table.grammar.items rest).map (.directive directive :: ·) := by
  have fuel : ('@' :: rest).length ≤ rest.length + 1 := by simp
  rw [← items_enough fuel]
  change (readDirective ('@' :: rest)).bind _ = _
  cases read : readDirective ('@' :: rest) with
  | none => rfl
  | some parts =>
      have shorter := readDirective_shorter read
      rw [List.length_cons] at shorter
      simp only [Option.bind_some]
      rw [items_enough (show parts.2.length ≤ rest.length by omega)]

/-- A listed statement is read as such, whatever follows it. -/
theorem items_entry (rowwise : table.Rowwise) {entry : Text × List NamedTriple}
    (listed : entry ∈ table.entries) (behind : Text) :
    table.grammar.items (entry.1 ++ behind) =
      (table.grammar.items behind).map (entry.2.map .triple ++ ·) := by
  have opens := table.opens entry listed
  obtain ⟨more, starts⟩ := List.head?_eq_some_iff.mp opens
  have found : table.entries.find? (fun other => other.1.isPrefixOf (entry.1 ++ behind)) =
      some entry := by
    cases searched : table.entries.find? fun other => other.1.isPrefixOf (entry.1 ++ behind) with
    | none =>
        have missed := List.find?_eq_none.mp searched entry listed
        rw [List.isPrefixOf_iff_prefix] at missed
        exact absurd (List.prefix_append _ _) missed
    | some other =>
        have inTable := List.mem_of_find?_eq_some searched
        have begins := List.find?_some searched
        simp only [List.isPrefixOf_iff_prefix] at begins
        rcases List.prefix_or_prefix_of_prefix begins (List.prefix_append entry.1 behind) with
          shorter | longer
        · rw [rowwise.known other inTable entry listed shorter]
        · rw [rowwise.known entry listed other inTable longer]
  have fuel : (entry.1 ++ behind).length ≤ (more ++ behind).length + 1 := by
    rw [starts]
    simp
  have rest : behind.length ≤ (more ++ behind).length := by simp
  have dropped : ('<' :: (more ++ behind)).drop entry.1.length = behind := by
    rw [← List.cons_append, ← starts, List.drop_left]
  rw [← items_enough fuel, ← items_enough rest]
  rw [starts] at found ⊢
  rw [List.cons_append] at found ⊢
  change (table.entries.find? _).bind _ = _
  rw [found, Option.bind_some]
  simp only [dropped]

/-- Behind white space comes a comment, a directive or a listed statement. -/
theorem entry_of_items {c : Char} {more : Text} {items : List Item} (visible : isSpace c = false)
    (noComment : c ≠ '#') (noDirective : c ≠ '@') (read : table.grammar.items (c :: more) = some items) :
    ∃ entry ∈ table.entries, ∃ behind, c :: more = entry.1 ++ behind ∧
      ∃ later, table.grammar.items behind = some later ∧ items = entry.2.map .triple ++ later := by
  have fuel : (c :: more).length ≤ more.length + 1 := by simp
  have start : (c :: more).dropWhile isSpace = c :: more := by simp [visible]
  rw [← items_enough fuel, readItems, start] at read
  split at read
  · rename_i empty
    cases empty
  · rename_i same
    cases same
    exact absurd rfl noComment
  · rename_i same
    cases same
    exact absurd rfl noDirective
  · obtain ⟨entry, found, taken⟩ := Option.bind_eq_some_iff.mp read
    obtain ⟨later, rest, same⟩ := Option.map_eq_some_iff.mp taken
    have listed := List.mem_of_find?_eq_some found
    have begins := List.find?_some found
    simp only [List.isPrefixOf_iff_prefix] at begins
    obtain ⟨behind, split⟩ := begins
    have shorter : behind.length ≤ more.length := by
      have lengths := congrArg List.length split
      have long := entry_nonempty listed
      rw [List.length_append, List.length_cons] at lengths
      omega
    rw [← split, List.drop_left, items_enough shorter] at rest
    exact ⟨entry, listed, behind, split.symm, later, rest, same.symm⟩

end Items

/-- A row of listed statements that may end in a comment. -/
inductive RowOf (table : StatementTable) : Text → List NamedTriple → Prop where
  | blank {space : Text} (spaces : ∀ c ∈ space, isSpace c = true) : RowOf table space []
  | comment {space : Text} (note : Text) (spaces : ∀ c ∈ space, isSpace c = true)
      (oneLine : '\n' ∉ note) : RowOf table (space ++ '#' :: note) []
  | entry {space behind : Text} {entry : Text × List NamedTriple} {triples : List NamedTriple}
      (spaces : ∀ c ∈ space, isSpace c = true) (listed : entry ∈ table.entries)
      (later : RowOf table behind triples) :
      RowOf table (space ++ (entry.1 ++ behind)) (entry.2 ++ triples)

theorem split_space (text : Text) :
    ∃ space start, text = space ++ start ∧ (∀ c ∈ space, isSpace c = true) ∧
      ∀ c ∈ start.head?, isSpace c = false := by
  refine ⟨text.takeWhile isSpace, text.dropWhile isSpace, List.takeWhile_append_dropWhile.symm,
    fun c member => List.mem_takeWhile_imp member, fun c opens => ?_⟩
  have visible := List.head?_dropWhile_not isSpace text
  rw [Option.mem_def.mp opens] at visible
  simpa using visible

theorem rowOf_of_items {row : Text} {triples : List NamedTriple}
    (oneLine : '\n' ∉ row) (read : table.grammar.items row = some (triples.map .triple)) :
    RowOf table row triples := by
  induction size : row.length using Nat.strongRecOn generalizing row triples with
  | ind size ih =>
      obtain ⟨space, start, rfl, spaces, visible⟩ := split_space row
      rw [items_space spaces] at read
      cases start with
      | nil =>
          rw [items_nil, Option.some.injEq] at read
          rw [List.map_eq_nil_iff.mp read.symm, List.append_nil]
          exact .blank spaces
      | cons c more =>
          by_cases hash : c = '#'
          · subst hash
            have note : '\n' ∉ more := fun member => oneLine (by simp [member])
            have gone : more.dropWhile (· ≠ '\n') = [] := by
              rw [List.dropWhile_eq_nil_iff]
              intro c member
              simp only [ne_eq, decide_not, Bool.not_eq_true', decide_eq_false_iff_not]
              exact fun same => note (same ▸ member)
            rw [items_comment, gone, items_nil, Option.some.injEq] at read
            rw [List.map_eq_nil_iff.mp read.symm]
            exact .comment more spaces note
          · by_cases at' : c = '@'
            · subst at'
              rw [items_directive] at read
              obtain ⟨⟨declared, rest⟩, -, later⟩ := Option.bind_eq_some_iff.mp read
              obtain ⟨items, -, same⟩ := Option.map_eq_some_iff.mp later
              cases triples with
              | nil => cases same
              | cons named triples => cases same
            · obtain ⟨entry, listed, behind, split, later, rest, same⟩ :=
                entry_of_items (visible c rfl) hash at' read
              obtain ⟨own, others, rfl, written, rfl⟩ := List.map_eq_append_iff.mp same
              have triples : own = entry.2 :=
                List.map_injective_iff.mpr (fun _ _ equal => Item.triple.inj equal) written
              have shorter := congrArg List.length split
              have long := entry_nonempty listed
              rw [List.length_append] at shorter
              rw [List.length_append] at size
              rw [triples, split]
              rw [split] at oneLine
              refine .entry spaces listed (ih behind.length (by omega) ?_ rest rfl)
              exact fun member => oneLine (by simp [member])

theorem whitespace_of_spaces {space : Text} (spaces : ∀ c ∈ space, isSpace c = true) :
    ∀ c ∈ space, isWhitespace c = true :=
  fun c member => isWhitespace_of_isSpace (spaces c member)

theorem RowOf.trimStart {row : Text} {triples : List NamedTriple} (rowOf : RowOf table row triples) :
    RowOf table (trimStart row) triples := by
  have none : ∀ c ∈ ([] : Text), isSpace c = true := by simp
  cases rowOf with
  | blank spaces =>
      have gone : Text.trimStart row = [] :=
        List.dropWhile_eq_nil_iff.mpr (whitespace_of_spaces spaces)
      rw [gone]
      exact .blank none
  | comment note spaces oneLine =>
      rw [trimStart_append (whitespace_of_spaces spaces), trimStart_cons (by decide)]
      exact .comment note none oneLine
  | @entry _ behind entry _ spaces listed later =>
      obtain ⟨more, starts⟩ := List.head?_eq_some_iff.mp (table.opens _ listed)
      have kept : Text.trimStart (entry.1 ++ behind) = entry.1 ++ behind := by
        rw [starts, List.cons_append, trimStart_cons (by decide)]
      rw [trimStart_append (whitespace_of_spaces spaces), kept]
      exact .entry none listed later

theorem RowOf.trimEnd (rowwise : table.Rowwise) {row : Text} {triples : List NamedTriple}
    (rowOf : RowOf table row triples) : RowOf table (trimEnd row) triples := by
  induction rowOf with
  | @blank space spaces =>
      have gone := @trimEnd_append space [] (whitespace_of_spaces spaces)
      rw [List.nil_append] at gone
      rw [gone]
      exact .blank (by simp [Text.trimEnd])
  | comment note spaces oneLine =>
      rw [trimEnd_behind _ _ (by decide)]
      exact .comment _ spaces fun member => oneLine ((trimEnd_initial note).subset member)
  | @entry space behind entry triples spaces listed later ih =>
      obtain ⟨front, ends⟩ := List.getLast?_eq_some_iff.mp (rowwise.dotted entry listed)
      have split : ∀ rest, space ++ (entry.1 ++ rest) = (space ++ front) ++ '.' :: rest := by
        intro rest
        simp [ends]
      rw [split, trimEnd_behind _ _ (by decide), ← split]
      exact .entry spaces listed ih

/-- A row is read by itself at the end of a text and in front of a line break. -/
theorem items_of_rowOf (rowwise : table.Rowwise) {row : Text} {triples : List NamedTriple}
    (rowOf : RowOf table row triples) {tail : Text} (breaks : ∀ c ∈ tail.head?, c = '\n') :
    table.grammar.items (row ++ tail) =
      (table.grammar.items tail).map (triples.map .triple ++ ·) := by
  induction rowOf with
  | blank spaces =>
      rw [items_space spaces]
      exact Option.map_id'.symm
  | comment note spaces oneLine =>
      have left : (note ++ tail).dropWhile (· ≠ '\n') = tail := by
        rw [List.dropWhile_append_of_pos]
        · cases tail with
          | nil => rfl
          | cons c rest =>
              rw [breaks c rfl]
              rfl
        · intro c member
          simp only [ne_eq, decide_not, Bool.not_eq_true', decide_eq_false_iff_not]
          exact fun same => oneLine (same ▸ member)
      rw [List.append_assoc, List.cons_append, items_space spaces, items_comment, left]
      exact Option.map_id'.symm
  | entry spaces listed later ih =>
      rw [List.append_assoc, items_space spaces, List.append_assoc, items_entry rowwise listed, ih,
        Option.map_map]
      simp only [Function.comp_def, List.map_append, List.append_assoc]

theorem items_alone (rowwise : table.Rowwise) {row : Text} {triples : List NamedTriple}
    (rowOf : RowOf table row triples) : table.grammar.items row = some (triples.map .triple) := by
  have read := @items_of_rowOf table rowwise row triples rowOf [] (by simp)
  rw [List.append_nil, items_nil, Option.map_some, List.append_nil] at read
  exact read

theorem RowOf.named (rowwise : table.Rowwise) {row : Text} {triples : List NamedTriple}
    (rowOf : RowOf table row triples) :
    ∀ named ∈ triples, ∀ node ∈ named.nodes, node.isAnonymous = false := by
  induction rowOf with
  | blank => simp
  | comment => simp
  | entry spaces listed later ih =>
      intro named member
      rcases List.mem_append.mp member with own | behind
      · exact rowwise.named _ listed named own
      · exact ih named behind

theorem readsRows (rowwise : table.Rowwise) : table.grammar.ReadsRows where
  empty := items_nil
  comment text oneLine _ := items_alone rowwise (RowOf.comment text (List.forall_mem_nil _) oneLine)
  directive text items read := by
    rw [items_directive] at read
    obtain ⟨⟨declared, rest⟩, -, later⟩ := Option.bind_eq_some_iff.mp read
    obtain ⟨others, -, same⟩ := Option.map_eq_some_iff.mp later
    exact ⟨declared, others, same.symm⟩
  trimmed row triples oneLine read :=
    items_alone rowwise ((rowOf_of_items oneLine read).trimStart.trimEnd rowwise)
  row row rest triples oneLine read := by
    have rowOf := rowOf_of_items oneLine read
    refine ⟨0, fun named member index listed => ?_, ?_⟩
    · exact Bool.noConfusion (rowOf.named rowwise named member _ listed)
    · have newline : table.grammar.items ('\n' :: rest) = table.grammar.items rest :=
        @items_space table ['\n'] (by decide) rest
      have unshifted : Item.shift 0 = id := funext Item.shift_zero
      rw [items_of_rowOf rowwise rowOf (by simp), newline, unshifted]
      simp only [List.map_id]

end StatementTable

end Turtle
