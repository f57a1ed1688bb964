import Antenna.Library.TurtleRows
import Antenna.LineStorage
import Antenna.SendCore
import Antenna.TickSteps

/-!
How `antenna_send` and the WebSocket server frame what they are given: each line is dispatched on its
own, whatever statement it belongs to.
-/

namespace LeanAntenna

open Text Turtle Rdf

section Framing

/-- The lines that a text message of a WebSocket client becomes. -/
def messageLines (text : Text) : List Text :=
  (lines text).filterMap fun line => if trim line = [] then none else some (trim line)

theorem messageLines_eq (text : Text) : messageLines text = turtleLines text := by
  unfold messageLines turtleLines
  induction lines text with
  | nil => rfl
  | cons line rest ih =>
      rw [List.filterMap_cons, List.map_cons, List.filter_cons, ih]
      by_cases blank : trim line = []
      · simp [blank]
      · simp [blank]

/-- The document's rows are documents of raw data: none of them leaves a statement open, no blank node
label is written in two of them, and a comment line holds no bare carriage return. -/
structure RowDocument (grammar : Grammar) (document : Text) (read : List (List NamedTriple)) : Prop where
  complete : List.Forall₂ (fun row triples => grammar.items row = some (triples.map .triple))
    (document.splitOn '\n') read
  apart : read.Pairwise fun left right => ∀ label ∈ writtenLabels left, label ∉ writtenLabels right
  data : ∀ line ∈ turtleLines document, line.head? ≠ some '#' → DataLine line
  comments : ∀ line ∈ turtleLines document, line.head? = some '#' → '\r' ∉ line

theorem turtleLines_rows (document : Text) :
    turtleLines document = ((document.splitOn '\n').map trim).filter (· ≠ []) :=
  lines_trimmed document

theorem RowDocument.laid {grammar : Grammar} {document : Text} {read : List (List NamedTriple)}
    (rows : RowDocument grammar document read) : Laid grammar (document.splitOn '\n') read := by
  refine ⟨?_, rows.apart⟩
  rw [List.forall₂_and_left]
  exact ⟨newline_not_mem_piece document, rows.complete⟩

end Framing

section Rows

variable {Carrier : Type} {grammar : Grammar} {load : Graph → Text → Graph × Except Text Unit}
  {host : Host Graph Carrier} {environment : Environment} {row : Text} {triples : List NamedTriple}
  {own : Graph}

/-- A visible row of data is stored as what it denotes. -/
theorem dataRow_stored (inserts : host.insertTurtle = loadTurtle load)
    (loads : LoadsTurtle grammar load) (directives : grammar.ReadsDirectives)
    (reads : grammar.ReadsRows) (known : storeEnvironment grammar = some environment)
    (oneLine : '\n' ∉ row) (read : grammar.items row = some (triples.map .triple))
    (denotes : grammar.graph environment (triples.map .triple) = some own)
    (visible : trim row ≠ [] ∧ (trim row).head? ≠ some '#') (data : DataLine (trim row))
    (world : World Graph Carrier) (account : Text) :
    StoredAs world (dispatch host true account (trim row) world) (trim row) own := by
  have alone := reads.trimmed row triples oneLine read
  have unbroken : '\n' ∉ trim row := fun member =>
    oneLine ((trimStart_suffix row).subset ((trimEnd_initial _).subset member))
  have undirected : (trimStart (trim row)).head? ≠ some '@' := by
    rw [trimStart_trim]
    intro opens
    obtain ⟨more, starts⟩ := List.head?_eq_some_iff.mp opens
    rw [starts] at alone
    obtain ⟨declared, rest, same⟩ := reads.directive _ _ alone
    cases triples <;> cases same
  have stripped : stripLeadingDirectives (trim row) = trim row := by
    rw [stripLeadingDirectives_data undirected, trimStart_trim]
  have denoted : grammar.denotes .empty (turtleDocument (trim row)) = some own := by
    obtain ⟨count, -, split⟩ := reads.row (trim row) [] triples unbroken alone
    rw [denotes_turtleDocument directives, known, Option.bind_some, Grammar.denotes, split,
      reads.empty, Option.map_some, Option.bind_some, List.map_nil, List.append_nil, denotes]
  rw [dispatch_data visible (by rw [stripped]; exact visible.1) (by rw [stripped]; exact data),
    stripped]
  exact insertWithDag_stored inserts loads denoted

/-- What the input loop does with a row. -/
def sendRow (host : Host Graph Carrier) (account : Text) (context : Context Graph Carrier)
    (row : Text) : Context Graph Carrier :=
  if trim row = [] then context else context.dispatched host account (trim row)

theorem sendRow_loads (inserts : host.insertTurtle = loadTurtle load)
    (loads : LoadsTurtle grammar load) (directives : grammar.ReadsDirectives)
    (reads : grammar.ReadsRows) (known : storeEnvironment grammar = some environment)
    (oneLine : '\n' ∉ row) (read : grammar.items row = some (triples.map .triple))
    (denotes : grammar.graph environment (triples.map .triple) = some own)
    (data : trim row ≠ [] → (trim row).head? ≠ some '#' → DataLine (trim row))
    (comment : (trim row).head? = some '#' → '\r' ∉ trim row) (context : Context Graph Carrier)
    (account : Text) :
    Loads context.world.store own (sendRow host account context row).world.store := by
  have alone := reads.trimmed row triples oneLine read
  have empty : grammar.items (trim row) = some [] → own = [] := by
    intro nothing
    rw [nothing, Option.some.injEq] at alone
    rw [← alone] at denotes
    cases denotes
    rfl
  rw [sendRow]
  by_cases blank : trim row = []
  · rw [if_pos blank, empty (by rw [blank]; exact reads.empty)]
    exact Loads.refl _
  · rw [if_neg blank]
    by_cases hash : (trim row).head? = some '#'
    · have skipped : dispatch host true account (trim row) context.world = context.world := by
        rw [dispatch, route, if_pos (.inr hash)]
      obtain ⟨note, starts⟩ := List.head?_eq_some_iff.mp hash
      have unbroken : '\n' ∉ trim row := fun member =>
        oneLine ((trimStart_suffix row).subset ((trimEnd_initial _).subset member))
      have returnless := comment hash
      rw [Context.dispatched, skipped]
      rw [starts, List.mem_cons, not_or] at unbroken returnless
      rw [empty (by rw [starts]; exact reads.comment note unbroken.2 returnless.2)]
      exact Loads.refl _
    · exact (dataRow_stored inserts loads directives reads known oneLine read denotes ⟨blank, hash⟩
        (data blank hash) context.world account).loads

theorem sendRows_load {rows : List Text} {read : List (List NamedTriple)}
    (inserts : host.insertTurtle = loadTurtle load)
    (loads : LoadsTurtle grammar load) (directives : grammar.ReadsDirectives)
    (reads : grammar.ReadsRows) (known : storeEnvironment grammar = some environment)
    (complete : List.Forall₂
      (fun row triples => '\n' ∉ row ∧ grammar.items row = some (triples.map .triple)) rows read)
    (denotes : ∀ triples ∈ read, ∃ own, grammar.graph environment (triples.map .triple) = some own)
    (data : ∀ row ∈ rows, trim row ≠ [] → (trim row).head? ≠ some '#' → DataLine (trim row))
    (comments : ∀ row ∈ rows, (trim row).head? = some '#' → '\r' ∉ trim row)
    (context : Context Graph Carrier) (account : Text) :
    LoadsRows grammar environment context.world.store read
      (rows.foldl (sendRow host account) context).world.store := by
  induction complete generalizing context with
  | nil => exact .none _
  | @cons row triples rows read first later ih =>
      obtain ⟨own, known'⟩ := denotes triples List.mem_cons_self
      refine .next known' (sendRow_loads inserts loads directives reads known first.1 first.2 known'
        (data row List.mem_cons_self) (comments row List.mem_cons_self) context account) ?_
      exact ih (fun triples member => denotes triples (List.mem_cons_of_mem _ member))
        (fun row member => data row (List.mem_cons_of_mem _ member))
        (fun row member => comments row (List.mem_cons_of_mem _ member)) _

/-- The input loop takes the lines as it would take the rows. -/
theorem lines_sendRow (document account : Text) (context : Context Graph Carrier) :
    (turtleLines document).foldl
        (fun context line => if line = [] then context else context.dispatched host account line)
        context =
      (document.splitOn '\n').foldl (sendRow host account) context := by
  rw [turtleLines_rows]
  induction document.splitOn '\n' generalizing context with
  | nil => rfl
  | cons row rows ih =>
      rw [List.map_cons, List.filter_cons, List.foldl_cons, sendRow]
      by_cases blank : trim row = []
      · simp only [blank, ne_eq, not_true_eq_false, decide_false, Bool.false_eq_true, if_false, if_true]
        exact ih context
      · simp only [blank, ne_eq, not_false_eq_true, decide_true, if_true, if_false, List.foldl_cons]
        exact ih _

/-- A document laid out in rows is stored line by line as the document itself would be, in whichever
way it is sent. -/
theorem row_document_stored (inserts : host.insertTurtle = loadTurtle load)
    (loads : LoadsTurtle grammar load) (directives : grammar.ReadsDirectives)
    (reads : grammar.ReadsRows) {document : Text} {read : List (List NamedTriple)}
    (rows : RowDocument grammar document read) {graph : Graph}
    (denoted : grammar.denotes .empty (turtleDocument document) = some graph) {framed : List Text}
    (sent : framed = turtleLines document ∨ framed = messageLines document)
    (context : Context Graph Carrier) (inputs : TickInputs Carrier)
    (iterated : inputs.iterated = .ok ()) :
    Loads
        (context.tick host { inputs with queries := [], emits := [] }).world.store
        graph
        (context.tick host { inputs with
          lines := inputs.lines ++ framed, queries := [], emits := [] }).world.store ∧
      ∀ store, (host.insertTurtle store document).2 = .ok () ∧
        Loads store graph (host.insertTurtle store document).1 := by
  constructor
  · have lines : framed = turtleLines document := sent.elim id fun same => same.trans (messageLines_eq _)
    rw [denotes_turtleDocument directives] at denoted
    obtain ⟨environment, known, whole⟩ := Option.bind_eq_some_iff.mp denoted
    rw [← joinRows_splitOn] at whole
    unfold Context.tick
    simp only [iterated, List.foldl_nil, List.foldl_append, lines, lines_sendRow]
    generalize inputs.lines.foldl _ _ = before
    refine loadsRows_document reads rows.laid whole ?_
    refine sendRows_load inserts loads directives reads known rows.laid.complete
      (rows.laid.denotes reads whole) ?_ ?_ before _
    · intro row member visible unmarked
      refine rows.data _ ?_ unmarked
      rw [turtleLines_rows]
      exact List.mem_filter.mpr ⟨List.mem_map_of_mem member, by simpa using visible⟩
    · intro row member hash
      refine rows.comments _ ?_ hash
      rw [turtleLines_rows]
      refine List.mem_filter.mpr ⟨List.mem_map_of_mem member, ?_⟩
      have visible : trim row ≠ [] := by
        intro blank
        rw [blank] at hash
        cases hash
      simpa using visible
  · intro store
    rw [inserts]
    exact loads.accepts store _ _ denoted

/-- A worker past its startup. -/
def quietContext : Context Graph Unit where
  world := emptyWorld
  accountId := []
  bootstrapEmit := none
  pendingAccountLoad := none
  startupEmitted := true

def quietTick (lines : List Text) : TickInputs Unit where
  carrier := ()
  iterated := .ok ()
  events := []
  lines
  queries := []
  emits := []

/-- The context in which the input loop of a quiet tick begins. -/
def clockedContext : Context Graph Unit :=
  { quietContext with
    world := { emptyWorld.record (.broadcast clockChannel clockTick) with carrier := () } }

theorem quietTick_store (host : Host Graph Unit) (lines : List Text) :
    (quietContext.tick host (quietTick lines)).world.store =
      (lines.foldl
        (fun context line => if line = [] then context else context.dispatched host [] line)
        clockedContext).world.store := rfl

/-- Comments, a blank row, and a row with two statements. -/
def layoutDocument : Text :=
  "# a note\n<urn:s> <urn:p> <urn:o> . <urn:s> <urn:p> <urn:o> .\n\n <urn:s> <urn:p> <urn:o> . # end".toList

theorem sampleTable_rowwise : sampleTable.Rowwise where
  known := by decide
  dotted := by decide
  named := by decide

theorem row_document_stored_layout :
    ∃ graph, sampleTable.grammar.denotes .empty (turtleDocument layoutDocument) = some graph ∧
      Loads (quietContext.tick (readingHost sampleTable.grammar) (quietTick [])).world.store graph
        (quietContext.tick (readingHost sampleTable.grammar)
          (quietTick (turtleLines layoutDocument))).world.store ∧
      ∀ store, ((readingHost sampleTable.grammar).insertTurtle store layoutDocument).2 = .ok () ∧
        Loads store graph ((readingHost sampleTable.grammar).insertTurtle store layoutDocument).1 := by
  have read : ((storeEnvironment sampleTable.grammar).bind fun environment =>
      sampleTable.grammar.denotes environment (layoutDocument ++ ['\n'])).isSome = true := by
    decide
  rw [← denotes_turtleDocument StatementTable.readsDirectives] at read
  obtain ⟨graph, denoted⟩ := Option.isSome_iff_exists.mp read
  have rows : RowDocument sampleTable.grammar layoutDocument
      [[], List.replicate 2 (sampleTriple (.iriRef "urn:p".toList)), [],
        [sampleTriple (.iriRef "urn:p".toList)]] := by
    obtain ⟨items, comments, untyped⟩ : (layoutDocument.splitOn '\n').map sampleTable.grammar.items =
        [[], List.replicate 2 (sampleTriple (.iriRef "urn:p".toList)), [],
          [sampleTriple (.iriRef "urn:p".toList)]].map (fun triples => some (triples.map .triple)) ∧
        (∀ line ∈ turtleLines layoutDocument, line.head? = some '#' → '\r' ∉ line) ∧
        ∀ line ∈ turtleLines layoutDocument, line.head? ≠ some '#' → extractType line = none := by
      decide
    rw [← List.forall₂_eq_eq_eq, List.forall₂_map_left_iff, List.forall₂_map_right_iff] at items
    refine ⟨items, by decide, fun line member unmarked => ?_, comments⟩
    exact dataLine_untyped (untyped line member unmarked)
  refine ⟨graph, denoted, ?_⟩
  exact row_document_stored (readingHost_inserts _) (loadsTurtle_readingLoad _)
    StatementTable.readsDirectives (StatementTable.readsRows sampleTable_rowwise) rows denoted
    (.inl rfl) quietContext (quietTick []) rfl

def splitDocument : Text := "<urn:s> <urn:p>\n<urn:o> .".toList

/-- Turtle as far as the split document is concerned. -/
def splitTable : StatementTable where
  entries := [(splitDocument, [sampleTriple (.iriRef "urn:p".toList)])]
  opens := by decide

/-- Lines of raw data that the store refuses leave it as it is. -/
theorem refused_lines (inserts : host.insertTurtle = loadTurtle load)
    (loads : LoadsTurtle grammar load) {lines : List Text}
    (refused : ∀ line ∈ lines, (line ≠ [] ∧ line.head? ≠ some '#') ∧
      stripLeadingDirectives line = line ∧ DataLine line ∧
      grammar.denotes .empty (turtleDocument line) = none)
    (context : Context Graph Carrier) (account : Text) :
    (lines.foldl
      (fun context line => if line = [] then context else context.dispatched host account line)
      context).world.store = context.world.store := by
  induction lines generalizing context with
  | nil => rfl
  | cons line lines ih =>
      obtain ⟨visible, stripped, data, unread⟩ := refused line List.mem_cons_self
      have same : (context.dispatched host account line).world.store = context.world.store := by
        have dispatched := @dispatch_data _ host context.world true account line visible
          (by rw [stripped]; exact visible.1) (by rw [stripped]; exact data)
        rw [stripped] at dispatched
        rw [Context.dispatched, dispatched]
        exact (insertWithDag_refused inserts loads unread).1
      rw [List.foldl_cons, if_neg visible.1,
        ih (fun other member => refused other (List.mem_cons_of_mem _ member)), same]

/-- The document is raw data that the store reads as a graph, and a tick with its lines stores
something else. -/
def Mangled (grammar : Grammar) (document : Text) : Prop :=
  (∀ line ∈ turtleLines document, DataLine line) ∧
    ∃ graph, grammar.denotes .empty (turtleDocument document) = some graph ∧
      ¬ Loads (quietContext.tick (readingHost grammar) (quietTick [])).world.store graph
        (quietContext.tick (readingHost grammar) (quietTick (turtleLines document))).world.store

/-- A statement on two lines is refused line by line. -/
theorem split_mangled : Mangled splitTable.grammar splitDocument := by
  obtain ⟨untyped, stripped, read⟩ :
      (∀ line ∈ turtleLines splitDocument, extractType line = none) ∧
        (∀ line ∈ turtleLines splitDocument, (line ≠ [] ∧ line.head? ≠ some '#') ∧
          stripLeadingDirectives line = line ∧
          ((storeEnvironment splitTable.grammar).bind fun environment =>
            splitTable.grammar.denotes environment (line ++ ['\n'])) = none) ∧
        ((storeEnvironment splitTable.grammar).bind fun environment =>
          splitTable.grammar.denotes environment (splitDocument ++ ['\n'])) =
            some [⟨.iri "urn:s".toList, "urn:p".toList, .resource (.iri "urn:o".toList)⟩] := by
    decide
  rw [← denotes_turtleDocument StatementTable.readsDirectives] at read
  have data : ∀ line ∈ turtleLines splitDocument, DataLine line := fun line member =>
    dataLine_untyped (untyped line member)
  refine ⟨data, _, read, ?_⟩
  have refused : ∀ line ∈ turtleLines splitDocument, (line ≠ [] ∧ line.head? ≠ some '#') ∧
      stripLeadingDirectives line = line ∧ DataLine line ∧
      splitTable.grammar.denotes .empty (turtleDocument line) = none := by
    intro line member
    obtain ⟨visible, plain, unread⟩ := stripped line member
    rw [← denotes_turtleDocument StatementTable.readsDirectives] at unread
    exact ⟨visible, plain, data line member, unread⟩
  rw [quietTick_store, quietTick_store, refused_lines (readingHost_inserts splitTable.grammar)
    (loadsTurtle_readingLoad _) refused]
  rintro ⟨rename, -, -, image⟩
  have stored := (image _).mpr (.inr ⟨_, List.mem_singleton_self _, rfl⟩)
  cases stored

/-- A row about the node `b`. -/
def sharedRow (predicate : String) : Text × List NamedTriple :=
  ("<urn:s> <".toList ++ predicate.toList ++ "> _:b .".toList,
    [⟨.name (.iriRef "urn:s".toList), .iriRef predicate.toList, .blank "b".toList⟩])

def sharedTable : StatementTable where
  entries := [sharedRow "urn:p", sharedRow "urn:q"]
  opens := by decide

theorem sharedTable_rowwise : sharedTable.Rowwise where
  known := by decide
  dotted := by decide
  named := by decide

def sharedDocument : Text := (sharedRow "urn:p").1 ++ '\n' :: (sharedRow "urn:q").1

theorem loadsRows_card {environment : Environment} {old new : Graph} {read : List (List NamedTriple)}
    (loaded : LoadsRows grammar environment old read new) :
    new.labels.card = old.labels.card + (read.map fun triples =>
      (Graph.labels ((grammar.graph environment (triples.map .triple)).getD [])).card).sum := by
  induction loaded with
  | none graph => simp
  | next denotes loaded later ih =>
      rw [ih, loaded.card, List.map_cons, List.sum_cons, denotes]
      simp only [Option.getD_some]
      omega

/-- A blank node of two lines becomes two. -/
theorem shared_mangled : Mangled sharedTable.grammar sharedDocument := by
  have rows : ((sharedDocument.splitOn '\n').map sharedTable.grammar.items =
        [(sharedRow "urn:p").2, (sharedRow "urn:q").2].map fun triples => some (triples.map .triple)) ∧
      ∀ line ∈ turtleLines sharedDocument, line.head? ≠ some '#' ∧ extractType line = none := by
    decide
  have counted : (storeEnvironment sharedTable.grammar).map (fun environment =>
      ((sharedTable.grammar.denotes environment (sharedDocument ++ ['\n'])).map
          fun graph => (Graph.labels graph).card,
        [(sharedRow "urn:p").2, (sharedRow "urn:q").2].map fun triples =>
          (sharedTable.grammar.graph environment (triples.map .triple)).map
            fun own => (Graph.labels own).card)) = some (some 1, [some 1, some 1]) := by
    decide
  obtain ⟨items, plain⟩ := rows
  obtain ⟨environment, known, cards⟩ := Option.map_eq_some_iff.mp counted
  obtain ⟨whole, each⟩ := Prod.mk.inj cards
  obtain ⟨graph, denoted, one⟩ := Option.map_eq_some_iff.mp whole
  have read : sharedTable.grammar.denotes .empty (turtleDocument sharedDocument) = some graph := by
    rw [denotes_turtleDocument StatementTable.readsDirectives, known, Option.bind_some, denoted]
  refine ⟨fun line member => dataLine_untyped (plain line member).2, graph, read, fun loaded => ?_⟩
  have total := loaded.card
  rw [quietTick_store, quietTick_store, lines_sendRow] at total
  have complete : List.Forall₂
      (fun row triples => '\n' ∉ row ∧ sharedTable.grammar.items row = some (triples.map .triple))
      (sharedDocument.splitOn '\n') [(sharedRow "urn:p").2, (sharedRow "urn:q").2] := by
    rw [← List.forall₂_eq_eq_eq, List.forall₂_map_left_iff, List.forall₂_map_right_iff] at items
    rw [List.forall₂_and_left]
    exact ⟨newline_not_mem_piece sharedDocument, items⟩
  obtain ⟨first, rest⟩ := List.cons.inj each
  obtain ⟨second, -⟩ := List.cons.inj rest
  obtain ⟨left, ofFirst, countFirst⟩ := Option.map_eq_some_iff.mp first
  obtain ⟨right, ofSecond, countSecond⟩ := Option.map_eq_some_iff.mp second
  have visible : ∀ row ∈ sharedDocument.splitOn '\n', trim row ≠ [] →
      (trim row).head? ≠ some '#' ∧ extractType (trim row) = none := by
    intro row member nonempty
    refine plain _ ?_
    rw [turtleLines_rows]
    exact List.mem_filter.mpr ⟨List.mem_map_of_mem member, by simpa using nonempty⟩
  have stored := sendRows_load (readingHost_inserts sharedTable.grammar) (loadsTurtle_readingLoad _)
    StatementTable.readsDirectives (StatementTable.readsRows sharedTable_rowwise) known complete
    (by
      intro triples member
      rcases List.mem_pair.mp member with rfl | rfl
      · exact ⟨left, ofFirst⟩
      · exact ⟨right, ofSecond⟩)
    (fun row member nonempty _ => dataLine_untyped (visible row member nonempty).2)
    (fun row member hash => by
      have nonempty : trim row ≠ [] := by
        intro blank
        rw [blank] at hash
        cases hash
      exact absurd hash (visible row member nonempty).1)
    clockedContext []
  have twice := loadsRows_card stored
  simp only [List.map_cons, List.map_nil, ofFirst, ofSecond, Option.getD_some, countFirst, countSecond,
    List.sum_cons, List.sum_nil] at twice
  rw [twice, one] at total
  simp only [List.foldl_nil] at total
  omega

theorem framing_mangles :
    Mangled splitTable.grammar splitDocument ∧ Mangled sharedTable.grammar sharedDocument :=
  ⟨split_mangled, shared_mangled⟩

end Rows

end LeanAntenna
