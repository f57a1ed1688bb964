import Antenna.LineStorage

/-!
What becomes of the output that a semantic router validates: it is parsed under the validator's own
prefixes, sent on with them, and stored without them.
-/

namespace LeanAntenna

open Text Turtle Rdf

/-- `TURTLE_PREFIXES` of the validator. -/
def routerPrefixes : List (Text × Text) :=
  [("res".toList, "https://resonator.network/".toList), ("antenna".toList, antennaNs),
    ("rdfs".toList, "http://www.w3.org/2000/01/rdf-schema#".toList),
    ("xsd".toList, "http://www.w3.org/2001/XMLSchema#".toList),
    ("rdf".toList, "http://www.w3.org/1999/02/22-rdf-syntax-ns#".toList)]

def routerDirectives : List WrittenDirective := routerPrefixes.map (storeDirective ['\n'])

def routerHeader : Text :=
  routerPrefixes.flatMap fun entry =>
    "@prefix ".toList ++ entry.1 ++ ": <".toList ++ entry.2 ++ "> .\n".toList

/-- The document that the validator parses and, if it has triples, sends on. -/
def routerDocument (raw : Text) : Text := routerHeader ++ '\n' :: trim raw

/-- `parse` yields the triples of a document, or the first error. -/
def validateTurtle (parse : Text → Except Text Graph) (raw : Text) : Except Text Text :=
  match parse (routerDocument raw) with
  | .error reason => .error ("Turtle parse error: ".toList ++ reason)
  | .ok [] => .error "LLM produced no triples".toList
  | .ok (_ :: _) => .ok (routerDocument raw)

theorem routerDirectives_text :
    routerDirectives.flatMap WrittenDirective.text = routerHeader := by decide +kernel

theorem routerDirectives_legal :
    ∀ written ∈ routerDirectives, written.Legal ∧ '.' ∉ written.label := by
  have entries : ∀ entry ∈ routerPrefixes, (unescapeIri entry.2).isSome = true ∧
      ∀ c ∈ entry.1, isNameChar c = true := by decide
  have blank : ∀ c ∈ ['\n'], isSpace c = true := by decide
  intro written member
  obtain ⟨entry, known, rfl⟩ := List.mem_map.mp member
  exact storeDirective_legal blank (entries entry known).1 (entries entry known).2

/-- All that the validator put in front is dropped. -/
theorem strip_routerDocument (raw : Text) :
    stripLeadingDirectives (routerDocument raw) = stripLeadingDirectives (trim raw) := by
  have blank : ∀ c ∈ ['\n'], isWhitespace c = true := by decide
  have lenient : ∀ written ∈ routerDirectives, Lenient written := fun written member =>
    lenient_of_legal (routerDirectives_legal written member).1 (routerDirectives_legal written member).2
  rw [routerDocument, ← routerDirectives_text, strip_texts lenient]
  exact stripLeadingDirectives_space blank (trim raw)

theorem denotes_routerDocument {grammar : Grammar} (reads : grammar.ReadsDirectives) (raw : Text) :
    grammar.denotes .empty (routerDocument raw) =
      (grammar.environmentAfter .empty (routerDirectives.map WrittenDirective.directive)).bind
        fun environment => grammar.denotes environment ('\n' :: trim raw) := by
  rw [routerDocument, ← routerDirectives_text]
  exact Grammar.denotes_directives reads .empty routerDirectives
    (fun written member => (routerDirectives_legal written member).1) _

theorem routerDocument_visible (raw : Text) :
    routerDocument raw ≠ [] ∧ (routerDocument raw).head? ≠ some '#' := by
  obtain ⟨more, starts⟩ : ∃ more, routerHeader = '@' :: more := ⟨_, rfl⟩
  rw [routerDocument, starts]
  simp

section Stored

variable {Carrier : Type} {grammar : Grammar} {load : Graph → Text → Graph × Except Text Unit}
  {parse : Text → Except Text Graph} {host : Host Graph Carrier}

/-- The parser of the library agrees with the grammar. -/
def ParsesTurtle (grammar : Grammar) (parse : Text → Except Text Graph) : Prop :=
  ∀ document, (parse document).toOption = grammar.denotes .empty document

theorem validateTurtle_ok {raw full : Text} (validated : validateTurtle parse raw = .ok full) :
    full = routerDocument raw ∧ ∃ triples, parse full = .ok triples ∧ triples ≠ [] := by
  unfold validateTurtle at validated
  split at validated
  · cases validated
  · cases validated
  · rename_i triple triples parsed
    cases validated
    exact ⟨rfl, _, parsed, by simp⟩

/-- The triples of a validated output are stored, and what is left of it is echoed, exactly if the
router sees no routed type there and it means the same under the store's prefixes. -/
theorem validated_stored_iff (inserts : host.insertTurtle = loadTurtle load)
    (loads : LoadsTurtle grammar load) (parses : ParsesTurtle grammar parse) {raw full : Text}
    (validated : validateTurtle parse raw = .ok full) (hasCarrier : Bool) (defaultAccount : Text)
    (world : World Graph Carrier) :
    (∃ triples, parse full = .ok triples ∧ ∀ store, StoredAs { world with store }
        (dispatch host hasCarrier defaultAccount full { world with store })
        (stripLeadingDirectives full) triples) ↔
      stripLeadingDirectives (trim raw) ≠ [] ∧ DataLine (stripLeadingDirectives (trim raw)) ∧
        SameMeaning grammar full (turtleDocument (stripLeadingDirectives (trim raw))) := by
  obtain ⟨rfl, triples, parsed, -⟩ := validateTurtle_ok validated
  have denoted : grammar.denotes .empty (routerDocument raw) = some triples := by
    rw [← parses, parsed]
    rfl
  have stored := storesMeaning_iff inserts loads (routerDocument_visible raw) hasCarrier defaultAccount
    world (routerDocument raw)
  rw [StoresMeaning, denoted, strip_routerDocument] at stored
  rw [← stored, strip_routerDocument, parsed]
  simp only [Except.ok.injEq, Option.some.injEq]

theorem parsesTurtle_readingParse (grammar : Grammar) : ParsesTurtle grammar (readingParse grammar) := by
  intro document
  unfold readingParse
  cases grammar.denotes .empty document <;> rfl

theorem validateTurtle_reading {grammar : Grammar} {raw : Text} {triple : Triple} {triples : Graph}
    (denoted : grammar.denotes .empty (routerDocument raw) = some (triple :: triples)) :
    validateTurtle (readingParse grammar) raw = .ok (routerDocument raw) := by
  have parsed : readingParse grammar (routerDocument raw) = .ok (triple :: triples) := by
    rw [readingParse, denoted]
  rw [validateTurtle, parsed]

/-- The triple of a sample statement. -/
def sampleFact (predicate : Text) : Triple :=
  ⟨.iri "urn:s".toList, predicate, .resource (.iri "urn:o".toList)⟩

theorem denotes_sample :
    sampleTable.grammar.denotes .empty (routerDocument "<urn:s> rdf:value <urn:o> .".toList) =
        some [sampleFact "http://www.w3.org/1999/02/22-rdf-syntax-ns#value".toList] ∧
      sampleTable.grammar.denotes .empty (routerDocument "<urn:s> <urn:p> <urn:o> .".toList) =
        some [sampleFact "urn:p".toList] := by
  rw [denotes_routerDocument StatementTable.readsDirectives,
    denotes_routerDocument StatementTable.readsDirectives]
  decide

/-- An output that uses the prefix `rdf` of the validator is accepted and not stored. -/
theorem validated_lost :
    DataLine "<urn:s> rdf:value <urn:o> .".toList ∧
      ∃ full triples, validateTurtle (readingParse sampleTable.grammar)
          "<urn:s> rdf:value <urn:o> .".toList = .ok full ∧
        readingParse sampleTable.grammar full = .ok triples ∧
        ¬ StoredAs emptyWorld (dispatch (readingHost sampleTable.grammar) true [] full emptyWorld)
          (stripLeadingDirectives full) triples := by
  have data : DataLine "<urn:s> rdf:value <urn:o> .".toList := dataLine_untyped (by decide)
  have kept : stripLeadingDirectives (routerDocument "<urn:s> rdf:value <urn:o> .".toList) =
      "<urn:s> rdf:value <urn:o> .".toList := by
    rw [strip_routerDocument]
    decide
  have unread : ((storeEnvironment sampleTable.grammar).bind fun environment =>
      sampleTable.grammar.denotes environment
        ("<urn:s> rdf:value <urn:o> .".toList ++ ['\n'])) = none := by
    decide
  rw [← denotes_turtleDocument StatementTable.readsDirectives] at unread
  have validated := validateTurtle_reading denotes_sample.1
  obtain ⟨-, triples, parsed, -⟩ := validateTurtle_ok validated
  refine ⟨data, _, triples, validated, parsed, ?_⟩
  rw [dispatch_data (routerDocument_visible _) (by rw [kept]; decide) (by rwa [kept]), kept]
  exact insertWithDag_unstored (readingHost_inserts _) (loadsTurtle_readingLoad _) unread

theorem validated_stored_plain :
    ∃ full, (∃ triples, readingParse sampleTable.grammar full = .ok triples ∧
        ∀ store, StoredAs { emptyWorld with store }
          (dispatch (readingHost sampleTable.grammar) true [] full { emptyWorld with store })
          (stripLeadingDirectives full) triples) ↔
      stripLeadingDirectives (trim "<urn:s> <urn:p> <urn:o> .".toList) ≠ [] ∧
        DataLine (stripLeadingDirectives (trim "<urn:s> <urn:p> <urn:o> .".toList)) ∧
        SameMeaning sampleTable.grammar full
          (turtleDocument (stripLeadingDirectives (trim "<urn:s> <urn:p> <urn:o> .".toList))) :=
  ⟨_, validated_stored_iff (readingHost_inserts _) (loadsTurtle_readingLoad _)
    (parsesTurtle_readingParse _) (validateTurtle_reading denotes_sample.2) true [] emptyWorld⟩

end Stored

end LeanAntenna
