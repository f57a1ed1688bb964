import Antenna.ConstructGraph
import Antenna.DispatchSteps
import Antenna.Library.TurtleTable
import Antenna.PipelineCore

/-!
How a line reaches the store: what is left of it behind its leading directives, the header that the
store puts in front, and when dispatching the line stores a given graph.
-/

namespace LeanAntenna

open Text Turtle Rdf

section Stripping

theorem directiveEnd_plain {front : Text} (plain : ∀ c ∈ front, c ∉ ['<', '>', '.']) (rest : Text) :
    directiveEnd false (front ++ rest) = directiveEnd false rest := by
  induction front with
  | nil => rfl
  | cons c front ih =>
      have unlike := plain c List.mem_cons_self
      simp only [List.mem_cons, List.not_mem_nil, or_false, not_or] at unlike
      rw [List.cons_append, directiveEnd]
      · rw [if_neg fun dot => unlike.2.2 dot.1]
        exact ih fun other member => plain other (List.mem_cons_of_mem c member)
      · exact unlike.1
      · exact unlike.2.1

theorem directiveEnd_iri {iri : Text} (inside : ∀ c ∈ iri, c ∉ ['<', '>']) (rest : Text) :
    directiveEnd true (iri ++ '>' :: rest) = directiveEnd false rest := by
  induction iri with
  | nil => rfl
  | cons c iri ih =>
      have unlike := inside c List.mem_cons_self
      simp only [List.mem_cons, List.not_mem_nil, or_false, not_or] at unlike
      rw [List.cons_append, directiveEnd]
      · rw [if_neg fun dot => Bool.noConfusion dot.2]
        exact ih fun other member => inside other (List.mem_cons_of_mem c member)
      · exact unlike.1
      · exact unlike.2

theorem directiveEnd_shorter {inIri : Bool} {line rest : Text} (ends : directiveEnd inIri line = some rest) :
    rest.length < line.length := by
  fun_induction directiveEnd inIri line with
  | case1 => contradiction
  | case2 _ line ih => exact Nat.lt_succ_of_lt (ih ends)
  | case3 _ line ih => exact Nat.lt_succ_of_lt (ih ends)
  | case4 inIri c line _ _ dot =>
      cases ends
      exact Nat.lt_succ_self _
  | case5 inIri c line _ _ _ ih => exact Nat.lt_succ_of_lt (ih ends)

/-- Rounds beyond the length of the line change nothing. -/
theorem stripDirectives_enough {rounds others : Nat} {line : Text} (enough : line.length ≤ rounds)
    (alsoEnough : line.length ≤ others) : stripDirectives rounds line = stripDirectives others line := by
  induction rounds generalizing others line with
  | zero =>
      have empty : line = [] := List.length_eq_zero_iff.mp (Nat.le_zero.mp enough)
      subst empty
      cases others <;> rfl
  | succ rounds ih =>
      cases others with
      | zero =>
          have empty : line = [] := List.length_eq_zero_iff.mp (Nat.le_zero.mp alsoEnough)
          subst empty
          rfl
      | succ others =>
          rw [stripDirectives, stripDirectives]
          split
          · cases ends : directiveEnd false line with
            | none => rfl
            | some rest =>
                have shorter := directiveEnd_shorter ends
                have trimmed := (trimStart_suffix rest).length_le
                exact ih (by omega) (by omega)
          · rfl

theorem stripLeadingDirectives_data {line : Text} (other : (trimStart line).head? ≠ some '@') :
    stripLeadingDirectives line = trimStart line := by
  unfold stripLeadingDirectives
  cases line.length with
  | zero => rfl
  | succ rounds => rw [stripDirectives, if_neg other]

theorem stripLeadingDirectives_space {space : Text} (blank : ∀ c ∈ space, isWhitespace c = true)
    (line : Text) : stripLeadingDirectives (space ++ line) = stripLeadingDirectives line := by
  have trimmed := (trimStart_suffix line).length_le
  rw [stripLeadingDirectives, stripLeadingDirectives, trimStart_append blank]
  apply stripDirectives_enough
  · rw [List.length_append]
    omega
  · exact trimmed

theorem stripLeadingDirectives_step {line rest : Text} (opens : (trimStart line).head? = some '@')
    (ends : directiveEnd false (trimStart line) = some rest) :
    stripLeadingDirectives line = stripLeadingDirectives rest := by
  have shorter := directiveEnd_shorter ends
  have within := (trimStart_suffix line).length_le
  have trimmed := (trimStart_suffix rest).length_le
  rw [stripLeadingDirectives, stripLeadingDirectives]
  cases rounds : line.length with
  | zero => omega
  | succ rounds =>
      rw [stripDirectives, if_pos opens, ends]
      apply stripDirectives_enough
      · omega
      · exact trimmed

theorem nameChar_unlike {c : Char} (inName : isNameChar c = true) :
    c ∉ ['<', '>', '.', '@', ':'] := by
  intro listed
  have refused : ∀ c ∈ ['<', '>', '.', '@', ':'], isNameChar c = false := by decide
  rw [refused c listed] at inName
  cases inName

/-- A directive with any white space between its tokens, any prefix without a dot, and any IRI without
angle brackets. -/
structure Lenient (written : WrittenDirective) : Prop where
  label : '.' ∉ written.label
  iri : ∀ c ∈ written.iri, c ∉ ['<', '>']
  spaces : ∀ c ∈ written.before ++ written.middle ++ written.after ++ written.gap, isWhitespace c = true

/-- Nothing ends in front of the first dot, and an IRI begins in any state. -/
theorem directiveEnd_open (inIri : Bool) {front : Text} (undotted : '.' ∉ front) (rest : Text) :
    directiveEnd inIri (front ++ '<' :: rest) = directiveEnd true rest := by
  induction front generalizing inIri with
  | nil => rfl
  | cons c front ih =>
      rw [List.mem_cons, not_or] at undotted
      rw [List.cons_append]
      by_cases opening : c = '<'
      · rw [opening, directiveEnd]
        exact ih true undotted.2
      · by_cases closing : c = '>'
        · rw [closing, directiveEnd]
          exact ih false undotted.2
        · rw [directiveEnd, if_neg fun dot => undotted.1 dot.1.symm]
          · exact ih inIri undotted.2
          · exact opening
          · exact closing

theorem whitespace_unlike {c : Char} (space : isWhitespace c = true) : c ∉ ['<', '>', '.'] := by
  intro listed
  have refused : ∀ c ∈ ['<', '>', '.'], isWhitespace c = false := by decide
  rw [refused c listed] at space
  cases space

variable {written : WrittenDirective}

theorem opening_undotted (lenient : Lenient written) : '.' ∉ written.opening := by
  have spaces : ∀ c ∈ written.before ++ written.middle, c ≠ '.' := by
    rintro c member rfl
    have space := lenient.spaces '.' (by
      simp only [List.mem_append] at member ⊢
      tauto)
    exact absurd (by simp) (whitespace_unlike space)
  have label := lenient.label
  obtain ⟨directive, before, middle, after, gap⟩ := written
  simp only [List.mem_append] at spaces
  intro dot
  cases directive with
  | base iri =>
      rcases List.mem_append.mp dot with keyword | blank
      · revert keyword
        decide
      · exact spaces '.' (Or.inl blank) rfl
  | declare prefixed iri =>
      simp only [WrittenDirective.opening, List.mem_append, List.mem_cons] at dot
      rcases dot with ((keyword | blank) | inLabel) | colon | blank
      · revert keyword
        decide
      · exact spaces '.' (Or.inl blank) rfl
      · exact label inLabel
      · revert colon
        decide
      · exact spaces '.' (Or.inr blank) rfl

variable (written) in
theorem text_starts (rest : Text) :
    trimStart (written.text ++ rest) = written.text ++ rest ∧
      (written.text ++ rest).head? = some '@' := by
  obtain ⟨more, starts⟩ : ∃ more, written.text ++ rest = '@' :: more := by
    unfold WrittenDirective.text WrittenDirective.opening
    cases written.directive <;> exact ⟨_, rfl⟩
  rw [starts, trimStart_cons (by decide)]
  exact ⟨rfl, rfl⟩

/-- A directive is dropped whole. -/
theorem strip_text (lenient : Lenient written) (rest : Text) :
    stripLeadingDirectives (written.text ++ rest) = stripLeadingDirectives rest := by
  obtain ⟨kept, opens⟩ := text_starts written rest
  have after : ∀ c ∈ written.after, c ∉ ['<', '>', '.'] := fun c member =>
    whitespace_unlike (lenient.spaces c (by simp [member]))
  have gap : ∀ c ∈ written.gap, isWhitespace c = true := fun c member =>
    lenient.spaces c (by simp [member])
  have split : written.text ++ rest =
      written.opening ++ '<' :: (written.iri ++ '>' :: (written.after ++ '.' :: (written.gap ++ rest))) := by
    simp [WrittenDirective.text]
  have ends : directiveEnd false (written.text ++ rest) = some (written.gap ++ rest) := by
    rw [split, directiveEnd_open false (opening_undotted lenient), directiveEnd_iri lenient.iri,
      directiveEnd_plain after]
    rfl
  rw [stripLeadingDirectives_step (by rw [kept, opens]) (by rw [kept, ends])]
  exact stripLeadingDirectives_space gap rest

theorem strip_texts {directives : List WrittenDirective} (lenient : ∀ written ∈ directives, Lenient written)
    (rest : Text) :
    stripLeadingDirectives (directives.flatMap WrittenDirective.text ++ rest) =
      stripLeadingDirectives rest := by
  induction directives with
  | nil => rfl
  | cons written directives ih =>
      rw [List.flatMap_cons, List.append_assoc, strip_text (lenient written List.mem_cons_self)]
      exact ih fun other member => lenient other (List.mem_cons_of_mem _ member)

theorem lenient_of_legal (legal : written.Legal) (undotted : '.' ∉ written.label) :
    Lenient written := by
  obtain ⟨value, iri⟩ := Option.isSome_iff_exists.mp legal.iri
  refine ⟨undotted, unescapeIri_closed iri, fun c member => ?_⟩
  exact isWhitespace_of_isSpace (legal.spaces c member)

end Stripping

section Header

def storeDirective (gap : Text) (entry : Text × Text) : WrittenDirective :=
  ⟨.declare entry.1 entry.2, [' '], [' '], [' '], gap⟩

def headerDirectives : List WrittenDirective :=
  turtlePrefixes.dropLast.map (storeDirective ['\n']) ++
    turtlePrefixes.getLast?.toList.map (storeDirective [])

theorem headerDirectives_text :
    headerDirectives.flatMap WrittenDirective.text = turtleHeader := by
  unfold turtleHeader
  simp only [String.toList_append]
  decide +kernel

/-- A directive for a prefix without dots is legal, and the router drops it whole. -/
theorem storeDirective_legal {gap : Text} {entry : Text × Text} (blank : ∀ c ∈ gap, isSpace c = true)
    (iri : (unescapeIri entry.2).isSome = true) (named : ∀ c ∈ entry.1, isNameChar c = true) :
    (storeDirective gap entry).Legal ∧ '.' ∉ (storeDirective gap entry).label := by
  have dotless : '.' ∉ entry.1 := fun member => nameChar_unlike (named '.' member) (by decide)
  have single : isSpace ' ' = true := by decide
  refine ⟨⟨iri, fun c member => Or.inl (named c member), fun last => ?_, fun c member => ?_, ?_⟩, dotless⟩
  · exact dotless (List.mem_of_getLast? last)
  · simp only [storeDirective, List.mem_append, List.mem_singleton] at member
    rcases member with ((rfl | rfl) | rfl) | inGap
    · exact single
    · exact single
    · exact single
    · exact blank c inGap
  · exact Or.inl (List.cons_ne_nil _ _)

theorem headerDirectives_legal : ∀ written ∈ headerDirectives, written.Legal := by
  have entries : ∀ entry ∈ turtlePrefixes, (unescapeIri entry.2).isSome = true ∧
      ∀ c ∈ entry.1, isNameChar c = true := by decide
  have spaces : ∀ gap ∈ [['\n'], []], ∀ c ∈ gap, isSpace c = true := by decide
  intro written member
  obtain ⟨gap, listed, entry, known, rfl⟩ : ∃ gap ∈ [['\n'], []], ∃ entry ∈ turtlePrefixes,
      storeDirective gap entry = written := by
    rcases List.mem_append.mp member with front | last
    · obtain ⟨entry, within, same⟩ := List.mem_map.mp front
      exact ⟨['\n'], by simp, entry, List.dropLast_subset _ within, same⟩
    · obtain ⟨entry, within, same⟩ := List.mem_map.mp last
      exact ⟨[], by simp, entry, List.mem_of_getLast? (Option.mem_toList.mp within), same⟩
  exact (storeDirective_legal (spaces gap listed) (entries entry known).1 (entries entry known).2).1

variable {grammar : Grammar}

/-- The environment in which the store reads what it is given. -/
def storeEnvironment (grammar : Grammar) : Option Environment :=
  grammar.environmentAfter .empty (headerDirectives.map WrittenDirective.directive)

theorem denotes_turtleDocument (reads : grammar.ReadsDirectives) (turtle : Text) :
    grammar.denotes .empty (turtleDocument turtle) =
      (storeEnvironment grammar).bind fun environment =>
        grammar.denotes environment (turtle ++ ['\n']) := by
  rw [turtleDocument, List.append_assoc, ← headerDirectives_text]
  exact Grammar.denotes_directives reads .empty headerDirectives headerDirectives_legal _

end Header

section Storage

variable {Carrier : Type}

/-- What is relied on of the library's `load_from_reader`: a document that denotes a graph is added
with fresh blank nodes, and any other leaves the store as it is. -/
structure LoadsTurtle (grammar : Grammar) (load : Graph → Text → Graph × Except Text Unit) : Prop where
  accepts : ∀ store document triples, grammar.denotes .empty document = some triples →
    (load store document).2 = .ok () ∧ Loads store triples (load store document).1
  refuses : ∀ store document, grammar.denotes .empty document = none →
    ∃ reason, load store document = (store, .error reason)

/-- `RdfStore::insert_turtle` over the library that loads. -/
def loadTurtle (load : Graph → Text → Graph × Except Text Unit) (store : Graph) (turtle : Text) :
    Graph × Except Text Unit := load store (turtleDocument turtle)

/-- The text went through the graph of scripts into the store, which took it as the triples, and was
sent out. -/
structure StoredAs (before after : World Graph Carrier) (text : Text) (triples : Graph) : Prop where
  effects : after.effects =
    before.effects ++ [.beforeInsert text, .insert text, .afterInsert text, .send text]
  loads : Loads before.store triples after.store

/-- The router sees no type in the text that it would hand to a handler. -/
def DataLine (text : Text) : Prop := ∀ type, extractType text = some type → ¬ Routed true type

theorem dataLine_untyped {text : Text} (untyped : extractType text = none) : DataLine text := by
  intro type found
  rw [untyped] at found
  cases found

/-- The text was not announced to the graph of scripts. -/
def Unannounced {Store : Type} (text : Text) (before after : World Store Carrier) : Prop :=
  ∃ added, after.effects = before.effects ++ added ∧ Effect.beforeInsert text ∉ added

section Announcing

variable {Store : Type} {text : Text} {before after : World Store Carrier}

theorem Adds.unannounced (adds : Adds before after) : Unannounced text before after := by
  obtain ⟨added, effects, plain, -⟩ := adds
  exact ⟨added, effects, fun member => plain _ member⟩

theorem Unannounced.trans {middle : World Store Carrier} (left : Unannounced text before middle)
    (right : Unannounced text middle after) : Unannounced text before after := by
  obtain ⟨earlier, effects, absent⟩ := left
  obtain ⟨later, more, alsoAbsent⟩ := right
  refine ⟨earlier ++ later, by rw [more, effects, List.append_assoc], ?_⟩
  rw [List.mem_append, not_or]
  exact ⟨absent, alsoAbsent⟩

/-- What an insert through the graph of scripts does, as the store accepts the line or not. -/
theorem insertWithDag_cases (world : World Store Carrier) (host : Host Store Carrier) (line : Text) :
    world.insertWithDag host line =
      { world with
        store := (host.insertTurtle world.store line).1
        effects := world.effects ++ .beforeInsert line :: .insert line ::
          match (host.insertTurtle world.store line).2 with
          | .ok () => [.afterInsert line, .send line]
          | .error _ => [] } := by
  rcases stored : host.insertTurtle world.store line with ⟨store, reason | done⟩
  · simp [World.insertWithDag, World.insertTurtle, World.record, stored]
  · simp [World.insertWithDag, World.insertTurtle, World.record, World.send, stored]

theorem unannounced_insertWithDag (world : World Store Carrier) (host : Host Store Carrier)
    {line : Text} (other : line ≠ text) : Unannounced text world (world.insertWithDag host line) := by
  refine ⟨_, by rw [insertWithDag_cases], ?_⟩
  cases (host.insertTurtle world.store line).2 with
  | error reason => simpa using other.symm
  | ok done => simpa using other.symm

theorem unannounced_foldl {Value : Type} (values : List Value)
    (step : World Store Carrier → Value → World Store Carrier)
    (each : ∀ world value, Unannounced text world (step world value)) (world : World Store Carrier) :
    Unannounced text world (values.foldl step world) := by
  induction values generalizing world with
  | nil => exact ⟨[], by simp, by simp⟩
  | cons value values ih => exact (each world value).trans (ih (step world value))

end Announcing

/-- The type of the lines that report a verified blocklist or its refusal. -/
theorem extractType_blocklist {name : Text}
    (listed : name ∈ ["BlocklistApply".toList, "BlocklistRejected".toList]) (tail : Text) :
    extractType ("[] a antenna:".toList ++ name ++ " ; ".toList ++ tail) = some (antennaNs ++ name) := by
  have plain : ∀ name ∈ ["BlocklistApply".toList, "BlocklistRejected".toList],
      (∀ c ∈ "antenna".toList ++ ':' :: name, c ∉ [' ', ';', '.']) ∧
        trim ("antenna".toList ++ ':' :: name) = "antenna".toList ++ ':' :: name := by
    decide
  obtain ⟨clear, trimmed⟩ := plain name listed
  have literals : "[] a antenna:".toList = '[' :: ']' :: ' ' :: 'a' :: ' ' :: "antenna".toList ++ [':'] ∧
      " ; ".toList = [' ', ';', ' '] ∧ " a ".toList = [' ', 'a', ' '] ∧ ':' ∉ "antenna".toList ∧
      typeNamespace "antenna".toList = some antennaNs ∧
      ∃ more, "antenna".toList = 'a' :: more := ⟨by decide, by decide, by decide, by decide, by decide, _, rfl⟩
  obtain ⟨opening, middle, verb, unmarked, known, more, starts⟩ := literals
  have text : "[] a antenna:".toList ++ name ++ " ; ".toList ++ tail =
      '[' :: ']' :: ' ' :: 'a' :: ' ' :: ("antenna".toList ++ ':' :: name ++ [' ']) ++
        ';' :: ' ' :: tail := by
    rw [opening, middle]
    simp
  rw [extractType, text]
  generalize "antenna".toList = label at clear trimmed unmarked known starts ⊢
  obtain ⟨kept, whole⟩ := trimEnd_visible (c := ';')
    ('[' :: ']' :: ' ' :: 'a' :: ' ' :: (label ++ ':' :: name ++ [' '])) (' ' :: tail) (by decide)
  have found : find ('[' :: ']' :: ' ' :: 'a' :: ' ' :: (label ++ ':' :: name ++ [' ']) ++ ';' :: kept)
      [' ', 'a', ' '] = some (['[', ']'], label ++ ':' :: name ++ ' ' :: ';' :: kept) := by
    have here := find_here [' ', 'a', ' '] (label ++ ':' :: name ++ ' ' :: ';' :: kept)
    simp only [List.cons_append, List.append_assoc, List.nil_append] at here ⊢
    rw [find_later _ (by simp), find_later _ (by simp), here]
    rfl
  have unbracketed : (label ++ ':' :: name ++ ' ' :: ';' :: kept).head? ≠ some '<' := by
    simp [starts]
  have visible : trimStart (label ++ ':' :: name ++ ' ' :: ';' :: kept) =
      label ++ ':' :: name ++ ' ' :: ';' :: kept := by
    rw [starts]
    exact trimStart_cons (by decide)
  rw [trim, List.cons_append, trimStart_cons (by decide), ← List.cons_append, whole, verb, found,
    Option.bind_some, visible, classAt, if_neg unbracketed, firstPiece_append (by simp) clear, trimmed,
    splitOnce_first unmarked, Option.bind_some, known]
  rfl

variable {grammar : Grammar} {load : Graph → Text → Graph × Except Text Unit}
  {host : Host Graph Carrier} {world : World Graph Carrier} {text : Text} {triples : Graph}

theorem StoredAs.announced {before after : World Graph Carrier}
    (stored : StoredAs before after text triples) : ¬ Unannounced text before after := by
  rintro ⟨added, effects, absent⟩
  rw [stored.effects] at effects
  have same := List.append_cancel_left effects
  rw [← same] at absent
  simp at absent

theorem subscribe_unannounced (typed : extractType text = some subscribeBlocklistType)
    (world : World Graph Carrier) :
    Unannounced text world (world.handleSubscribeBlocklist host text) := by
  have others : ∀ name ∈ ["BlocklistApply".toList, "BlocklistRejected".toList], ∀ tail,
      "[] a antenna:".toList ++ name ++ " ; ".toList ++ tail ≠ text := by
    intro name listed tail same
    have own := extractType_blocklist listed tail
    rw [same, typed] at own
    have distinct : ∀ name ∈ ["BlocklistApply".toList, "BlocklistRejected".toList],
        subscribeBlocklistType ≠ antennaNs ++ name := by
      decide
    exact distinct name listed (Option.some.inj own)
  unfold World.handleSubscribeBlocklist
  repeat' split
  · refine unannounced_foldl _ _ (fun world uri => unannounced_insertWithDag world host ?_) world
    have split : "[] a antenna:BlocklistApply ; antenna:contactUri \"".toList =
        "[] a antenna:".toList ++ "BlocklistApply".toList ++ " ; ".toList ++
          "antenna:contactUri \"".toList := by decide
    rw [split, List.append_assoc, List.append_assoc]
    exact others _ (by simp) _
  · rename_i reason _
    have split : "[] a antenna:BlocklistRejected ; antenna:reason \"".toList =
        "[] a antenna:".toList ++ "BlocklistRejected".toList ++ " ; ".toList ++
          "antenna:reason \"".toList := by decide
    refine unannounced_insertWithDag world host ?_
    rw [split, List.append_assoc, List.append_assoc]
    exact others _ (by simp) _
  · exact (adds_antennaError world _).unannounced

theorem insertWithDag_stored (inserts : host.insertTurtle = loadTurtle load)
    (loads : LoadsTurtle grammar load)
    (denoted : grammar.denotes .empty (turtleDocument text) = some triples) :
    StoredAs world (world.insertWithDag host text) text triples := by
  obtain ⟨accepted, grown⟩ := loads.accepts world.store _ _ denoted
  rw [insertWithDag_cases, inserts]
  refine ⟨?_, grown⟩
  rw [loadTurtle, accepted]

theorem insertWithDag_refused (inserts : host.insertTurtle = loadTurtle load)
    (loads : LoadsTurtle grammar load)
    (undenoted : grammar.denotes .empty (turtleDocument text) = none) :
    (world.insertWithDag host text).store = world.store ∧
      (world.insertWithDag host text).effects =
        world.effects ++ [.beforeInsert text, .insert text] := by
  obtain ⟨reason, refused⟩ := loads.refuses world.store _ undenoted
  rw [insertWithDag_cases, inserts, loadTurtle, refused]
  exact ⟨rfl, rfl⟩

theorem insertWithDag_unstored (inserts : host.insertTurtle = loadTurtle load)
    (loads : LoadsTurtle grammar load)
    (undenoted : grammar.denotes .empty (turtleDocument text) = none) :
    ¬ StoredAs world (world.insertWithDag host text) text triples := by
  intro stored
  have refused : _ ∧ (world.insertWithDag host text).effects = _ :=
    insertWithDag_refused inserts loads undenoted
  rw [stored.effects] at refused
  have short := List.append_cancel_left refused.2
  simp at short

/-- Only raw data is announced under its own text. -/
theorem dispatch_unannounced {hasCarrier : Bool} {defaultAccount line : Text}
    (routed : stripLeadingDirectives line = [] ∨ ¬ DataLine (stripLeadingDirectives line)) :
    Unannounced (stripLeadingDirectives line) world
      (dispatch host hasCarrier defaultAccount line world) := by
  have same : Unannounced (stripLeadingDirectives line) world world := ⟨[], by simp, by simp⟩
  unfold dispatch route
  dsimp only
  split_ifs with skipped empty
  · exact same
  · exact same
  · have named := routed.resolve_left empty
    generalize stripLeadingDirectives line = text at named same ⊢
    cases typed : extractType text with
    | none =>
        exact absurd (dataLine_untyped typed) named
    | some type =>
        have handed : Routed true type := by
          by_contra unrouted
          refine named fun other found => ?_
          rw [typed] at found
          rwa [← Option.some.inj found]
        dsimp only
        unfold routeOfType
        split_ifs with spin carrier present design blocklist
        · exact (adds_handleSpin world host text type).unannounced
        · obtain ⟨added, effects, absent⟩ :=
            Adds.unannounced (adds_handleCarrier world host text type defaultAccount)
          exact ⟨added, effects, absent⟩
        · exact same
        · exact (adds_handleDesign world host type).unannounced
        · exact subscribe_unannounced (by rw [typed, blocklist]) world
        · rcases handed with spin' | ⟨-, carrier'⟩ | design' | blocklist'
          · exact absurd spin' spin
          · exact absurd carrier' carrier
          · exact absurd design' design
          · exact absurd blocklist' blocklist

theorem dispatch_data {hasCarrier : Bool} {defaultAccount line : Text}
    (visible : line ≠ [] ∧ line.head? ≠ some '#') (kept : stripLeadingDirectives line ≠ [])
    (data : DataLine (stripLeadingDirectives line)) :
    dispatch host hasCarrier defaultAccount line world =
      world.insertWithDag host (stripLeadingDirectives line) := by
  unfold dispatch route
  rw [if_neg (by tauto), if_neg kept]
  generalize stripLeadingDirectives line = text at data ⊢
  cases typed : extractType text with
  | none => rfl
  | some type =>
      have unrouted := data type typed
      simp only [Routed, true_and, not_or] at unrouted
      obtain ⟨spin, carrier, design, blocklist⟩ := unrouted
      dsimp only
      rw [routeOfType, if_neg spin, if_neg carrier, if_neg design, if_neg blocklist]

/-- A line is stored as a graph wherever it is dispatched exactly if what is left of it behind its
leading directives is raw data that the store reads as that graph. -/
theorem dispatch_stores_iff (inserts : host.insertTurtle = loadTurtle load)
    (loads : LoadsTurtle grammar load) {line : Text} (visible : line ≠ [] ∧ line.head? ≠ some '#')
    (hasCarrier : Bool) (defaultAccount : Text) (world : World Graph Carrier) (triples : Graph) :
    (∀ store, StoredAs { world with store }
        (dispatch host hasCarrier defaultAccount line { world with store })
        (stripLeadingDirectives line) triples) ↔
      stripLeadingDirectives line ≠ [] ∧ DataLine (stripLeadingDirectives line) ∧
        ∃ stored, grammar.denotes .empty (turtleDocument (stripLeadingDirectives line)) = some stored ∧
          Isomorphic triples stored := by
  constructor
  · intro stored
    have announced := (stored []).announced
    have kept : stripLeadingDirectives line ≠ [] := fun empty =>
      announced (dispatch_unannounced (Or.inl empty))
    have data : DataLine (stripLeadingDirectives line) := by
      by_contra routed
      exact announced (dispatch_unannounced (Or.inr routed))
    refine ⟨kept, data, ?_⟩
    have alone := stored []
    rw [dispatch_data visible kept data] at alone
    cases denoted : grammar.denotes .empty (turtleDocument (stripLeadingDirectives line)) with
    | none => exact absurd alone (insertWithDag_unstored inserts loads denoted)
    | some own =>
        have read : StoredAs { world with store := [] } _ _ own :=
          insertWithDag_stored inserts loads denoted
        exact ⟨own, rfl, alone.loads.isomorphic.trans read.loads.isomorphic.symm⟩
  · rintro ⟨kept, data, own, denoted, same⟩ store
    rw [dispatch_data visible kept data]
    have read : StoredAs { world with store } _ _ own := insertWithDag_stored inserts loads denoted
    exact ⟨read.effects, read.loads.congr same⟩

/-- Dispatching the line stores what the document denotes, whatever the store holds. -/
def StoresMeaning (grammar : Grammar) (host : Host Graph Carrier) (hasCarrier : Bool)
    (defaultAccount : Text) (world : World Graph Carrier) (line document : Text) : Prop :=
  ∃ triples, grammar.denotes .empty document = some triples ∧
    ∀ store, StoredAs { world with store }
      (dispatch host hasCarrier defaultAccount line { world with store })
      (stripLeadingDirectives line) triples

/-- Both documents denote graphs, and these differ at most in the names of their blank nodes. -/
def SameMeaning (grammar : Grammar) (left right : Text) : Prop :=
  ∃ triples stored, grammar.denotes .empty left = some triples ∧
    grammar.denotes .empty right = some stored ∧ Isomorphic triples stored

/-- What a document denotes is stored by a line exactly if what is left of the line is raw data that
means the same in the store's environment. -/
theorem storesMeaning_iff (inserts : host.insertTurtle = loadTurtle load)
    (loads : LoadsTurtle grammar load) {line : Text} (visible : line ≠ [] ∧ line.head? ≠ some '#')
    (hasCarrier : Bool) (defaultAccount : Text) (world : World Graph Carrier) (document : Text) :
    StoresMeaning grammar host hasCarrier defaultAccount world line document ↔
      stripLeadingDirectives line ≠ [] ∧ DataLine (stripLeadingDirectives line) ∧
        SameMeaning grammar document (turtleDocument (stripLeadingDirectives line)) := by
  unfold StoresMeaning SameMeaning
  simp only [dispatch_stores_iff inserts loads visible hasCarrier defaultAccount world]
  constructor
  · rintro ⟨triples, denoted, kept, data, stored, read, same⟩
    exact ⟨kept, data, triples, stored, denoted, read, same⟩
  · rintro ⟨kept, data, triples, stored, denoted, read, same⟩
    exact ⟨triples, denoted, kept, data, stored, read, same⟩

end Storage

section Reading

/-- A library that loads what a grammar reads, under fresh labels. -/
def readingLoad (grammar : Grammar) (store : Graph) (document : Text) : Graph × Except Text Unit :=
  match grammar.denotes .empty document with
  | some triples => (store.add (triples.map (Triple.rename (freshLabel store))), .ok ())
  | none => (store, .error [])

theorem loadsTurtle_readingLoad (grammar : Grammar) : LoadsTurtle grammar (readingLoad grammar) where
  accepts store document triples denoted := by
    unfold readingLoad
    rw [denoted]
    exact ⟨rfl, loads_freshLabel store triples⟩
  refuses store document undenoted := by
    unfold readingLoad
    rw [undenoted]
    exact ⟨[], rfl⟩

def readingParse (grammar : Grammar) (document : Text) : Except Text Graph :=
  match grammar.denotes .empty document with
  | some triples => .ok triples
  | none => .error []

def readingHost (grammar : Grammar) : Host Graph Unit where
  query _ _ := .ok (.boolean true)
  update store _ := (store, .ok ())
  insertTurtle := loadTurtle (readingLoad grammar)
  resolveActiveTheme _ := .ok []
  verifySignedBlocklist _ _ := .ok []
  call _ _ := ((), .ok [])

def sampleTriple (predicate : Name) : NamedTriple :=
  ⟨.name (.iriRef "urn:s".toList), predicate, .name (.iriRef "urn:o".toList)⟩

/-- A statement without prefixes, one with a prefix `ex`, and one with the prefix `rdf`. -/
def sampleTable : StatementTable where
  entries :=
    [("<urn:s> <urn:p> <urn:o> .".toList, [sampleTriple (.iriRef "urn:p".toList)]),
      ("<urn:s> ex:p <urn:o> .".toList, [sampleTriple (.prefixed "ex".toList "p".toList)]),
      ("<urn:s> rdf:value <urn:o> .".toList, [sampleTriple (.prefixed "rdf".toList "value".toList)])]
  opens := by decide

theorem readingHost_inserts (grammar : Grammar) :
    (readingHost grammar).insertTurtle = loadTurtle (readingLoad grammar) := rfl

end Reading

end LeanAntenna
