import Antenna.EventReading
import Mathlib.Data.List.Nodup

/-!
What the line of an event says when it is read as Turtle: one statement whose triples are the type,
the account and the predicates of the event with their decoded values.
-/

namespace LeanAntenna

open Text Turtle

/-- The predicates of every event of a type, in order. -/
def CarrierEventType.fieldNames (type : CarrierEventType) : List Text :=
  (match type with
  | connected => []
  | disconnected => []
  | accountReady => ["selfUri", "displayName"]
  | accountError => ["cause"]
  | accountArchiveReady => ["path"]
  | selfId => ["selfUri"]
  | trustRequest => ["contactUri", "payload"]
  | contactOnline => ["contactUri"]
  | contactOffline => ["contactUri"]
  | contactName => ["contactUri", "displayName"]
  | contactRestored => ["contactUri", "displayName", "blocked"]
  | textMessage => ["contactUri", "conversationId", "messageId", "text"]
  | messageSent => ["contactUri", "conversationId", "messageId", "status"]
  | groupMessage => ["conversationId", "messageId", "contactUri", "displayName", "text"]
  | groupPeerJoin => ["conversationId", "memberUri"]
  | groupPeerExit => ["conversationId", "memberUri"]
  | conversationRequest => ["conversationId", "contactUri"]
  | conversationReady => ["conversationId"]
  | savedConversation => ["conversationId"]
  | conversationSyncFinished => []
  | swarmCommit => ["conversationId", "contactUri", "messageId"]
  | reaction => ["conversationId", "messageId", "contactUri", "reaction", "reactionId"]
  | presence => ["contactUri", "status"]
  | fileRecv => ["conversationId", "contactUri", "messageId", "fileId", "filename", "size"]
  | fileProgress => ["conversationId", "fileId"]
  | fileComplete => ["conversationId", "fileId", "status"]
  | deviceLinkPin => ["pin"]
  | deviceLinked => ["contactUri"]
  | deviceUnlinked => ["contactUri"]
  | error => ["command", "class", "message"]
  | system => ["message"]).map String.toList

/-- The predicates that a line leaves out when they are empty. -/
def CarrierEventType.optionalNames (type : CarrierEventType) : List Text :=
  (match type with
  | accountReady | groupMessage => ["displayName"]
  | trustRequest => ["payload"]
  | reaction => ["reactionId"]
  | fileRecv => ["filename"]
  | _ => []).map String.toList

def CarrierEvent.accountFacts (event : CarrierEvent) : List (Text × Term) :=
  if event.account = [] then []
  else [(carrierNs ++ "account".toList, .literal event.account .string)]

/-- What the line of an event should say. -/
def CarrierEvent.statement (event : CarrierEvent) : Statement where
  subject := .anonymous 0
  facts :=
    (rdfType, .iri (carrierNs ++ event.data.type.className)) ::
      (event.accountFacts ++
        (event.data.fields.filter Field.present).map
          (fun field => (carrierNs ++ field.name, field.value.term)) ++
        [(carrierNs ++ "at".toList,
          .literal (formatTimestamp event.timestamp) (.typed (xsd "dateTime")))])

def CarrierEvent.decoded (event : CarrierEvent) : Text × List (Text × FieldValue) :=
  (event.account, event.data.fields.map fun field => (field.name, field.value))

section Fields

theorem fields_names (data : CarrierEventData) :
    data.fields.map Field.name = data.type.fieldNames := by
  cases data <;> rfl

theorem className_vocabulary (type : CarrierEventType) : IsVocabulary type.className := by
  cases type <;> decide

theorem fieldNames_vocabulary (type : CarrierEventType) :
    ∀ name ∈ type.fieldNames, IsVocabulary name := by
  cases type <;> decide

theorem fieldNames_nodup (type : CarrierEventType) :
    ("account".toList :: (type.fieldNames ++ ["at".toList])).Nodup := by
  cases type <;> decide

/-- A field is left out exactly when it is optional and empty. -/
def LeftOut (type : CarrierEventType) (field : Field) : Prop :=
  field.present = false ↔ field.name ∈ type.optionalNames ∧ field.value = .text []

theorem leftOut_required {type : CarrierEventType} {name : String} (value : Text)
    (needed : name.toList ∉ type.optionalNames) : LeftOut type (.required name value) := by
  simp [LeftOut, Field.required, needed]

theorem leftOut_number {type : CarrierEventType} {name : String} (value : Int)
    (needed : name.toList ∉ type.optionalNames) : LeftOut type (.number name value) := by
  simp [LeftOut, Field.number, needed]

theorem leftOut_optional {type : CarrierEventType} {name : String} (value : Text)
    (spare : name.toList ∈ type.optionalNames) : LeftOut type (.optional name value) := by
  simp [LeftOut, Field.optional, spare]

theorem bytesToString_eq_nil (payload : Bytes) :
    bytesToString payload = [] ↔ (payload.getD []).length = 0 := by
  cases payload with
  | none => simp [bytesToString]
  | some bytes => simp [bytesToString, Utf8.lossy_eq_nil]

theorem fields_leftOut (data : CarrierEventData) : ∀ field ∈ data.fields, LeftOut data.type field := by
  cases data with
  | trustRequest fromUri payload =>
      simp only [CarrierEventData.fields, CarrierEventData.type, List.forall_mem_cons]
      refine ⟨leftOut_required _ (by decide), ?_, by simp⟩
      have spare : "payload".toList ∈ CarrierEventType.trustRequest.optionalNames := by decide
      simp only [LeftOut, decide_eq_false_iff_not, FieldValue.text.injEq, bytesToString_eq_nil,
        spare, true_and]
      omega
  | _ =>
      simp only [CarrierEventData.fields, CarrierEventData.type, List.forall_mem_cons,
        List.not_mem_nil, false_imp_iff, implies_true, and_true]
      all_goals repeat' apply And.intro
      all_goals
        first
        | exact leftOut_required _ (by decide)
        | exact leftOut_number _ (by decide)
        | exact leftOut_optional _ (by decide)

theorem fieldTerm_injective : Function.Injective FieldValue.term := by
  intro left right same
  cases left <;> cases right <;> simp [FieldValue.term, decimal_injective.eq_iff] at same ⊢
  all_goals exact same

end Fields

section Statement

theorem field_name_mem {data : CarrierEventData} {field : Field} (member : field ∈ data.fields) :
    field.name ∈ data.type.fieldNames := by
  rw [← fields_names]
  exact List.mem_map_of_mem member

theorem entries_sound (event : CarrierEvent) : ∀ entry ∈ event.entries, entry.Sound := by
  intro entry member
  simp only [CarrierEvent.entries, List.mem_append, List.mem_map, List.mem_filter,
    List.mem_singleton] at member
  rcases member with (account | ⟨field, ⟨inside, -⟩, rfl⟩) | rfl
  · unfold CarrierEvent.accountEntries at account
    split at account
    · simp at account
    · have word : IsVocabulary "account".toList := by decide
      rw [List.mem_singleton] at account
      subst account
      exact ⟨word, quotedToken_writes _⟩
  · refine ⟨fieldNames_vocabulary _ _ (field_name_mem inside), ?_⟩
    unfold Field.entry
    cases field.value with
    | text value => exact quotedToken_writes value
    | integer value => exact decimal_writes value
  · have word : IsVocabulary "at".toList := by decide
    exact ⟨word, dateTimeToken_writes event.timestamp⟩

theorem entries_facts (event : CarrierEvent) :
    event.statement.facts =
      (rdfType, .iri (carrierNs ++ event.data.type.className)) :: event.entries.map Entry.fact := by
  have account : event.accountEntries.map Entry.fact = event.accountFacts := by
    unfold CarrierEvent.accountEntries CarrierEvent.accountFacts
    split <;> rfl
  rw [CarrierEvent.entries, List.map_append, List.map_append, account, List.map_map]
  rfl

/-- The line of an event is read as exactly the event's statement. -/
theorem read_eventToTurtle (event : CarrierEvent) :
    read storePrefixes (eventToTurtle event) = some event.statement := by
  have vocabulary := className_vocabulary event.data.type
  have sound : ∀ property ∈ event.entries.map Entry.property, property.Sound storePrefixes := by
    intro property member
    obtain ⟨entry, listed, rfl⟩ := List.mem_map.mp member
    exact (entries_sound event entry listed).property
  have facts : (event.entries.map Entry.property).map Property.fact = event.entries.map Entry.fact := by
    rw [List.map_map]
    rfl
  rw [← render_written, written_describe, render_describe,
    read_describe (carrierName_readable vocabulary) (carrierName_iri vocabulary) sound, facts,
    ← entries_facts]
  rfl

theorem eventToTurtle_oneLine (event : CarrierEvent) :
    ∀ c ∈ eventToTurtle event, c ∉ ['\n', '\r'] := by
  have start : ∀ d ∈ "[] a carrier:".toList, d ∉ ['\n', '\r'] := by decide
  have ending : ∀ d ∈ " .".toList, d ∉ ['\n', '\r'] := by decide
  intro c member
  rw [eventToTurtle_eq, List.mem_append, List.mem_append, List.mem_append] at member
  rcases member with before | name | entries | after
  · exact start c before
  · exact vocabulary_oneLine (className_vocabulary event.data.type) c name
  · exact oneLine_entries (entries_sound event) c entries
  · exact ending c after

/-- Every predicate stands in the statement once. -/
theorem facts_nodup (event : CarrierEvent) : (event.statement.facts.map Prod.fst).Nodup := by
  have names : (event.entries.map Entry.name).Sublist
      ("account".toList :: (event.data.type.fieldNames ++ ["at".toList])) := by
    have account : (event.accountEntries.map Entry.name).Sublist ["account".toList] := by
      unfold CarrierEvent.accountEntries
      split
      · exact List.nil_sublist _
      · exact List.Sublist.refl _
    have fields : ((event.data.fields.filter Field.present).map fun field => field.entry.name).Sublist
        event.data.type.fieldNames := by
      rw [← fields_names]
      exact List.Sublist.map Field.name List.filter_sublist
    rw [CarrierEvent.entries, List.append_assoc, List.map_append, List.map_append, List.map_map]
    exact account.append (fields.append (List.Sublist.refl _))
  have distinct := (fieldNames_nodup event.data.type).sublist names
  rw [entries_facts, List.map_cons, List.map_map, List.nodup_cons]
  constructor
  · intro member
    obtain ⟨entry, -, same⟩ := List.mem_map.mp member
    have start : carrierNs <+: rdfType := ⟨entry.name, same⟩
    revert start
    decide
  · have injective : Function.Injective (carrierNs ++ ·) := fun _ _ same =>
      List.append_cancel_left same
    have shifted := distinct.map injective
    rwa [List.map_map] at shifted

end Statement

section Decoding

theorem fact_mem_iff {event : CarrierEvent} {name : Text} {term : Term} :
    (carrierNs ++ name, term) ∈ event.statement.facts ↔
      ∃ entry ∈ event.entries, entry.name = name ∧ entry.term = term := by
  have other : carrierNs ++ name ≠ rdfType := by
    intro same
    have start : carrierNs <+: rdfType := ⟨name, same⟩
    revert start
    decide
  rw [entries_facts, List.mem_cons, List.mem_map]
  constructor
  · rintro (first | ⟨entry, member, same⟩)
    · exact absurd (Prod.mk.inj first).1 other
    · obtain ⟨names, terms⟩ := Prod.mk.inj same
      exact ⟨entry, member, List.append_cancel_left names, terms⟩
  · rintro ⟨entry, member, rfl, rfl⟩
    exact Or.inr ⟨entry, member, rfl⟩

theorem account_not_field (type : CarrierEventType) : "account".toList ∉ type.fieldNames :=
  fun member =>
    (List.nodup_cons.mp (fieldNames_nodup type)).1 (List.mem_append_left _ member)

/-- A line says of a field what was decoded, and says it only of the fields it carries. -/
theorem field_fact_iff {event : CarrierEvent} {field : Field} (member : field ∈ event.data.fields)
    (term : Term) :
    (carrierNs ++ field.name, term) ∈ event.statement.facts ↔
      field.present = true ∧ field.value.term = term := by
  have distinct := fieldNames_nodup event.data.type
  rw [List.nodup_cons, List.nodup_append] at distinct
  obtain ⟨-, fieldsDistinct, -, apart⟩ := distinct
  rw [fact_mem_iff]
  constructor
  · rintro ⟨entry, inside, named, rfl⟩
    simp only [CarrierEvent.entries, List.mem_append, List.mem_map, List.mem_filter,
      List.mem_singleton] at inside
    rcases inside with (account | ⟨other, ⟨otherMember, shown⟩, rfl⟩) | rfl
    · unfold CarrierEvent.accountEntries at account
      split at account
      · simp at account
      · rw [List.mem_singleton] at account
        subst account
        have clash := field_name_mem member
        rw [← named] at clash
        exact absurd clash (account_not_field event.data.type)
    · rw [← fields_names] at fieldsDistinct
      have same := List.inj_on_of_nodup_map fieldsDistinct otherMember member named
      exact ⟨same ▸ shown, by rw [← same]; rfl⟩
    · exact absurd named.symm (apart _ (field_name_mem member) _ (List.mem_singleton.mpr rfl))
  · rintro ⟨shown, rfl⟩
    refine ⟨field.entry, ?_, rfl, rfl⟩
    simp only [CarrierEvent.entries, List.mem_append, List.mem_map, List.mem_filter]
    exact Or.inl (Or.inr ⟨field, ⟨member, shown⟩, rfl⟩)

theorem account_fact_iff (event : CarrierEvent) (term : Term) :
    (carrierNs ++ "account".toList, term) ∈ event.statement.facts ↔
      event.account ≠ [] ∧ Term.literal event.account .string = term := by
  rw [fact_mem_iff]
  constructor
  · rintro ⟨entry, inside, named, rfl⟩
    simp only [CarrierEvent.entries, List.mem_append, List.mem_map, List.mem_filter,
      List.mem_singleton] at inside
    rcases inside with (account | ⟨field, ⟨member, -⟩, rfl⟩) | rfl
    · unfold CarrierEvent.accountEntries at account
      split at account
      · simp at account
      · rename_i nonempty
        rw [List.mem_singleton] at account
        subst account
        exact ⟨nonempty, rfl⟩
    · have clash := field_name_mem member
      rw [show field.name = "account".toList from named] at clash
      exact absurd clash (account_not_field event.data.type)
    · have apart : "at".toList ≠ "account".toList := by decide
      exact absurd named apart
  · rintro ⟨nonempty, rfl⟩
    refine ⟨quotedEntry "account".toList event.account, ?_, rfl, rfl⟩
    simp [CarrierEvent.entries, CarrierEvent.accountEntries, nonempty]

theorem named_values_eq {left right : List Field}
    (names : left.map Field.name = right.map Field.name)
    (values : ∀ field ∈ left, ∀ other ∈ right, field.name = other.name → field.value = other.value) :
    left.map (fun field => (field.name, field.value)) =
      right.map fun field => (field.name, field.value) := by
  induction left generalizing right with
  | nil =>
      cases right with
      | nil => rfl
      | cons other right => simp at names
  | cons field left ih =>
      cases right with
      | nil => simp at names
      | cons other right =>
          simp only [List.map_cons, List.cons.injEq] at names
          have value := values field (by simp) other (by simp) names.1
          rw [List.map_cons, List.map_cons, names.1, value,
            ih names.2 fun f member g inside => values f (by simp [member]) g (by simp [inside])]

/-- Events of one type that say the same were decoded to the same values. -/
theorem decoded_eq {left right : CarrierEvent} (type : left.data.type = right.data.type)
    (facts : left.statement.facts = right.statement.facts) : left.decoded = right.decoded := by
  have account : left.account = right.account := by
    have said := account_fact_iff left (.literal right.account .string)
    have own := account_fact_iff right (.literal right.account .string)
    have other := account_fact_iff right (.literal left.account .string)
    have mine := account_fact_iff left (.literal left.account .string)
    rw [facts] at said mine
    by_cases empty : right.account = []
    · by_cases filled : left.account = []
      · rw [filled, empty]
      · have both := other.mp (mine.mpr ⟨filled, rfl⟩)
        exact absurd empty both.1
    · have both := said.mp (own.mpr ⟨empty, rfl⟩)
      simpa using both.2
  have fields : left.data.fields.map (fun field => (field.name, field.value)) =
      right.data.fields.map fun field => (field.name, field.value) := by
    refine named_values_eq (by rw [fields_names, fields_names, type]) ?_
    intro field member other inside named
    have said := field_fact_iff member
    have shown := field_fact_iff inside
    rw [facts, named] at said
    by_cases present : field.present = true
    · have carried := (said field.value.term).mpr ⟨present, rfl⟩
      exact (fieldTerm_injective ((shown _).mp carried).2).symm
    · by_cases otherPresent : other.present = true
      · have carried := (shown other.value.term).mpr ⟨otherPresent, rfl⟩
        exact absurd ((said _).mp carried).1 present
      · rw [Bool.not_eq_true] at present otherPresent
        rw [((fields_leftOut left.data field member).mp present).2,
          ((fields_leftOut right.data other inside).mp otherPresent).2]
  rw [CarrierEvent.decoded, CarrierEvent.decoded, account, fields]

end Decoding

/-- The line of an event has no line break and is read as exactly one statement, in which every
predicate stands once, and a field is missing exactly when it is optional and empty; so events of
one type with one line were decoded to the same values. -/
theorem eventToTurtle_faithful (event : CarrierEvent) :
    (∀ c ∈ eventToTurtle event, c ∉ ['\n', '\r']) ∧
    read storePrefixes (eventToTurtle event) = some event.statement ∧
    (event.statement.facts.map Prod.fst).Nodup ∧
    (∀ field ∈ event.data.fields, field.present = false ↔
      field.name ∈ event.data.type.optionalNames ∧ field.value = .text []) ∧
    ∀ other : CarrierEvent, event.data.type = other.data.type →
      eventToTurtle event = eventToTurtle other → event.decoded = other.decoded := by
  refine ⟨eventToTurtle_oneLine event, read_eventToTurtle event, facts_nodup event,
    fields_leftOut event.data, ?_⟩
  intro other type same
  have reads := read_eventToTurtle event
  rw [same, read_eventToTurtle other] at reads
  exact decoded_eq type (congrArg Statement.facts (Option.some.inj reads)).symm

end LeanAntenna
