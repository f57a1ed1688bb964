import Antenna.Library.TurtleQuoting
import Antenna.DispatchSteps
import Antenna.SelectResults
import Antenna.ThemeBundle

/-!
The replies the router writes itself: which of them a client reads as the statement they are meant to
be, and how the name of a type gets into the others.
-/

namespace LeanAntenna

open Text Turtle

def OneLine (text : Text) : Prop := ∀ c ∈ text, c ∉ ['\n', '\r']

instance (text : Text) : Decidable (OneLine text) := inferInstanceAs (Decidable (∀ c ∈ text, _))

def errorType : Name := .prefixed "antenna".toList "Error".toList

def messageVerb : Name := .prefixed "antenna".toList "message".toList

def errorClass : Text := antennaNs ++ "Error".toList

def messageProperty : Text := antennaNs ++ "message".toList

def askResultClass : Text := spNs ++ "AskResult".toList

def bundleClass : Text := designNs ++ "ThemeBundleComplete".toList

/-- The four kinds of replies. -/
inductive Intended : List (Text × Turtle.Term) → Prop where
  | error (message : Text) :
      Intended [(rdfType, .iri errorClass), (messageProperty, .literal message .string)]
  | result (bindings : List (Text × Text)) (bound : bindings ≠ []) :
      Intended ((rdfType, .iri resultClass) ::
        bindings.map fun (name, term) => (varNs ++ name, .literal term .string))
  | askResult (answer : Bool) :
      Intended [(rdfType, .iri askResultClass),
        (spNs ++ "boolean".toList, .literal (toString answer).toList (.typed (xsd "boolean")))]
  | bundleComplete (size : Nat) :
      Intended [(rdfType, .iri bundleClass),
        (designNs ++ "bundleSize".toList, .literal (toString size).toList (.typed (xsd "integer")))]

/-- The line is one statement of its kind and nothing else. -/
structure WellFormedReply (line : Text) : Prop where
  oneLine : OneLine line
  intended : ∃ statement, readLine storePrefixes line = some statement ∧ Intended statement.facts

section Replies

variable {Store Carrier : Type}

/-- The messages of a route that are data: stored lines, and triples of the store. -/
def passedOn (host : Host Store Carrier) (world : World Store Carrier) : Route → List Text
  | .stored line => [line]
  | .spin line rdfType =>
      if rdfType.drop spNs.length = "Construct".toList then
        match (spText (extractProperty line)).map (host.query world.store) with
        | some (.ok (.graph triples)) => (triples.filterMap Except.toOption).map World.tripleLine
        | _ => []
      else []
  | .design rdfType =>
      if rdfType.drop designNs.length = "ResolveActiveTheme".toList then
        match host.resolveActiveTheme world.store with
        | .ok triples => triples.map World.tripleLine
        | .error _ => []
      else []
  | .subscribeBlocklist line _ =>
      match extractProperty line "antenna:blocklistPayload".toList,
          extractProperty line "antenna:blocklistSig".toList with
      | some payload, some sig =>
          match host.verifySignedBlocklist payload sig with
          | .ok entries => entries.map fun uri =>
              "[] a antenna:BlocklistApply ; antenna:contactUri \"".toList ++
                World.withoutQuotes uri ++ "\" .".toList
          | .error reason =>
              ["[] a antenna:BlocklistRejected ; antenna:reason \"".toList ++
                World.withoutQuotes reason ++ "\" .".toList]
      | _, _ => []
  | _ => []

/-- The messages that dispatching a line sends and that the router has written itself. -/
def replies (host : Host Store Carrier) (hasCarrier : Bool) (defaultAccount line : Text)
    (world : World Store Carrier) : List Text :=
  ((dispatch host hasCarrier defaultAccount line world).sent.drop world.sent.length).filter
    (· ∉ passedOn host world (route line hasCarrier))

def spinNames : List Text :=
  ["Select".toList, "Ask".toList, "Construct".toList, "InsertData".toList, "DeleteData".toList,
    "Modify".toList]

/-- The name of a type that stands in the reply as it stands in the line. -/
def quotedName : Route → Option Text
  | .spin line rdfType =>
      if (spText (extractProperty line)).isSome ∧ rdfType.drop spNs.length ∈ spinNames then none
      else some (rdfType.drop spNs.length)
  | .design rdfType =>
      if rdfType.drop designNs.length = "ResolveActiveTheme".toList then none
      else some (rdfType.drop designNs.length)
  | _ => none

end Replies

section Lines

theorem errorType_readable : errorType.Readable :=
  prefixed_readable antenna_label (by decide) (by decide)

theorem messageVerb_readable : messageVerb.Readable :=
  prefixed_readable antenna_label (by decide) (by decide)

theorem errorType_iri : errorType.iri storePrefixes = some errorClass :=
  prefixed_iri antenna_known rfl (by decide)

theorem messageVerb_iri : messageVerb.iri storePrefixes = some messageProperty :=
  prefixed_iri antenna_known rfl (by decide)

theorem error_front :
    "[] a antenna:Error ; antenna:message \"".toList =
        "[] a ".toList ++ errorType.text ++ " ; ".toList ++ messageVerb.text ++ " \"".toList ∧
      OneLine "[] a antenna:Error ; antenna:message \"".toList := by
  decide

theorem quoting_error (message : Text) :
    "[] a antenna:Error ; antenna:message \"".toList ++ message ++ "\" .".toList =
      quoting errorType messageVerb message :=
  congrArg (fun opening => opening ++ message ++ "\" .".toList) error_front.1

theorem quoting_oneLine {message : Text} :
    OneLine (quoting errorType messageVerb message) ↔ OneLine message := by
  have front := error_front.2
  have closing : OneLine "\" .".toList := by decide
  rw [← quoting_error]
  constructor
  · intro line c member
    exact line c (by simp [member])
  · intro line c member
    rcases List.mem_append.mp member with before | last
    · exact (List.mem_append.mp before).elim (front c) (line c)
    · exact closing c last

/-- The first fact of an error reply says that it is one. -/
theorem error_of_intended {content : Text} {result : Statement}
    (read : readLine storePrefixes (quoting errorType messageVerb content) = some result)
    (intended : Intended result.facts) :
    ∃ value, result.facts = [(rdfType, .iri errorClass), (messageProperty, .literal value .string)] := by
  have first := first_fact_quoting errorType_readable messageVerb_readable errorType_iri
    messageVerb_iri read
  have distinct : resultClass ≠ errorClass ∧ askResultClass ≠ errorClass ∧
      bundleClass ≠ errorClass := by decide
  obtain ⟨results, asks, bundles⟩ := distinct
  generalize result.facts = facts at first intended ⊢
  cases intended with
  | error message => exact ⟨message, rfl⟩
  | result bindings bound => simp [results.symm] at first
  | askResult answer => simp [asks.symm] at first
  | bundleComplete size => simp [bundles.symm] at first

theorem error_wellFormed_iff {message : Text} (starts : message.head? ≠ some '"') :
    WellFormedReply (quoting errorType messageVerb message) ↔ OneLine message ∧ Harmless message := by
  constructor
  · rintro ⟨line, result, read, intended⟩
    have oneLine := quoting_oneLine.mp line
    obtain ⟨value, facts⟩ := error_of_intended read intended
    refine ⟨oneLine, ?_⟩
    exact (readLine_quoting_iff errorType_readable messageVerb_readable errorType_iri messageVerb_iri
      starts oneLine).mp ⟨result, value, read, facts⟩
  · rintro ⟨oneLine, harmless⟩
    obtain ⟨result, value, read, facts⟩ := (readLine_quoting_iff errorType_readable
      messageVerb_readable errorType_iri messageVerb_iri starts oneLine).mpr harmless
    exact ⟨quoting_oneLine.mpr oneLine, result, read, facts ▸ Intended.error value⟩

end Lines

section Constructed

theorem literal_wellFormed {message : Text} (content : LiteralContent message)
    (oneLine : OneLine message) : WellFormedReply (quoting errorType messageVerb message) := by
  apply (error_wellFormed_iff ?_).mpr ⟨oneLine, Or.inl content⟩
  intro quote
  obtain ⟨later, rfl⟩ := List.head?_eq_some_iff.mp quote
  have enclosed := content.1
  rw [Enclosed] at enclosed
  · exact enclosed.2.1 rfl
  · simp

theorem unescaped_parts {front : Text} (plain : Unescaped front) :
    OneLine front ∧ ∀ c ∈ front, c ∉ ['"', '\\'] := by
  refine ⟨fun c member listed => plain c member ?_, fun c member listed => plain c member ?_⟩
  all_goals
    simp only [List.mem_cons, List.not_mem_nil, or_false] at listed ⊢
    tauto

theorem oneLine_append {front back : Text} : OneLine (front ++ back) ↔ OneLine front ∧ OneLine back := by
  simp only [OneLine, List.forall_mem_append]

/-- A reason goes into an error escaped. -/
theorem escaped_wellFormed {front : Text} (plain : Unescaped front) (reason : Text) :
    WellFormedReply (quoting errorType messageVerb (front ++ turtleEscape reason)) := by
  obtain ⟨oneLine, unquoted⟩ := unescaped_parts plain
  rw [turtleEscape_eq_eventEscape]
  apply literal_wellFormed
  · rw [literalContent_front unquoted]
    exact ⟨enclosed_eventEscape reason, by rw [unescape_eventEscape]; rfl⟩
  · exact oneLine_append.mpr ⟨oneLine, eventEscape_oneLine reason⟩

theorem plain_wellFormed {message : Text} (plain : Unescaped message) :
    WellFormedReply (quoting errorType messageVerb message) := by
  have whole := escaped_wellFormed plain []
  rw [turtleEscape_eq_eventEscape, eventEscape_nil, List.append_nil] at whole
  exact whole

theorem quoted_wellFormed_iff {front name : Text} (plain : Unescaped front) (nonempty : front ≠ []) :
    WellFormedReply (quoting errorType messageVerb (front ++ name)) ↔ OneLine name ∧ Harmless name := by
  obtain ⟨oneLine, unquoted⟩ := unescaped_parts plain
  have starts : (front ++ name).head? ≠ some '"' := by
    intro quote
    cases front with
    | nil => contradiction
    | cons c front =>
        cases quote
        simpa using unquoted '"' (by simp)
  rw [error_wellFormed_iff starts, oneLine_append, harmless_front unquoted]
  exact and_congr_left fun _ => and_iff_right oneLine

theorem result_wellFormed {row : List (Text × Text)} (bound : row ≠ [])
    (named : ∀ binding ∈ row, IsVarName binding.1) : WellFormedReply (World.resultLine row) := by
  have sound : ∀ property ∈ row.map fun (name, term) => bindingProperty name term,
      property.Sound storePrefixes := by
    intro property member
    obtain ⟨binding, listed, rfl⟩ := List.mem_map.mp member
    exact bindingProperty_sound (named binding listed) _
  have readable : resultType.Readable := prefixed_readable antenna_label (by decide) (by decide)
  have names : resultType.iri storePrefixes = some resultClass :=
    prefixed_iri antenna_known rfl (by decide)
  refine ⟨?_, ⟨.anonymous 0, _⟩, ?_, Intended.result row bound⟩
  · rw [resultLine_eq bound]
    apply describe_oneLine
    · exact prefixed_oneLine antenna_label (by decide)
    · intro property member
      obtain ⟨binding, listed, rfl⟩ := List.mem_map.mp member
      exact bindingProperty_oneLine (named binding listed) _
  · rw [resultLine_eq bound]
    have read := readLine_of_read (read_describe readable names sound)
    rw [List.map_map] at read
    exact read

theorem askResult_wellFormed (answer : Bool) :
    WellFormedReply ("[] a sp:AskResult ; sp:boolean ".toList ++ (toString answer).toList ++
      " .".toList) := by
  have both : ∀ answer : Bool,
      OneLine ("[] a sp:AskResult ; sp:boolean ".toList ++ (toString answer).toList ++ " .".toList) ∧
        readLine storePrefixes ("[] a sp:AskResult ; sp:boolean ".toList ++
          (toString answer).toList ++ " .".toList) = some ⟨.anonymous 0,
            [(rdfType, .iri askResultClass), (spNs ++ "boolean".toList,
              .literal (toString answer).toList (.typed (xsd "boolean")))]⟩ := by
    decide
  exact ⟨(both answer).1, _, (both answer).2, Intended.askResult answer⟩

def bundleType : Name := .prefixed "design".toList "ThemeBundleComplete".toList

def sizeProperty (size : Nat) : Property where
  verb := .prefixed "design".toList "bundleSize".toList
  object := .bare (toString size).toList
  predicate := designNs ++ "bundleSize".toList
  term := .literal (toString size).toList (.typed (xsd "integer"))

theorem bundleComplete_eq (size : Nat) :
    bundleComplete size = describe bundleType [sizeProperty size] := by
  have front : "[] a design:ThemeBundleComplete ; design:bundleSize ".toList =
      "[] a ".toList ++ bundleType.text ++ (" ; ".toList ++ (sizeProperty 0).verb.text ++ [' ']) := by
    decide
  unfold bundleComplete describe
  rw [front, List.flatMap_cons, List.flatMap_nil, List.append_nil]
  unfold Property.text
  simp only [List.append_assoc, List.cons_append, List.nil_append]
  rfl

theorem bundleComplete_wellFormed (size : Nat) : WellFormedReply (bundleComplete size) := by
  have label : ∀ c ∈ "design".toList, isNameChar c = true := by decide
  have known : storePrefixes "design".toList = some designNs := by decide
  have writes : Writes (sizeProperty size).object (sizeProperty size).term := by
    unfold sizeProperty
    rw [toString_decimal]
    exact decimal_writes size
  have sound : ∀ property ∈ [sizeProperty size], property.Sound storePrefixes := by
    intro property member
    obtain rfl := List.mem_singleton.mp member
    exact ⟨prefixed_readable label (by decide) (by decide), writes.readable,
      prefixed_iri known rfl (by decide), writes.denotes, writes.constant⟩
  have readable : bundleType.Readable := prefixed_readable label (by decide) (by decide)
  have names : bundleType.iri storePrefixes = some bundleClass := prefixed_iri known rfl (by decide)
  refine ⟨?_, ⟨.anonymous 0, _⟩, ?_, Intended.bundleComplete size⟩
  · rw [bundleComplete_eq]
    apply describe_oneLine
    · exact prefixed_oneLine label (by decide)
    · intro property member
      obtain rfl := List.mem_singleton.mp member
      have opening : OneLine " ; ".toList := by decide
      unfold Property.text
      rw [← OneLine, oneLine_append, oneLine_append]
      refine ⟨⟨opening, prefixed_oneLine label (by decide)⟩, ?_⟩
      intro c member
      rcases List.mem_cons.mp member with rfl | inside
      · decide
      · exact writes.oneLine c inside
  · rw [bundleComplete_eq]
    exact readLine_of_read (read_describe readable names sound)

end Constructed

section Missing

/-- The properties whose lack a command reports. -/
def requiredFields : List String :=
  ["carrier:path", "carrier:account", "carrier:displayName", "carrier:contactUri", "carrier:text",
    "carrier:conversationId", "carrier:messageId", "carrier:reaction", "carrier:fileId",
    "carrier:pin"]

theorem required_error {command : Command} {property : Properties} {field : String}
    {missing : MissingField} : command.required property field = .error missing ↔
      property field.toList = none ∧ missing = ⟨command.localName, field.toList⟩ := by
  unfold Command.required Command.missing
  cases property field.toList with
  | none => simp [eq_comm]
  | some value => simp

theorem bind_error {Failure Value Result : Type} {outcome : Except Failure Value}
    {next : Value → Except Failure Result} {failure : Failure} :
    outcome >>= next = .error failure ↔
      outcome = .error failure ∨ ∃ value, outcome = .ok value ∧ next value = .error failure := by
  cases outcome with
  | error reason => simp [bind, Except.bind]
  | ok value => simp [bind, Except.bind]

/-- A refused command names itself and one of its required properties. -/
theorem call_error {command : Command} {property : Properties} {defaultAccount : Text}
    {missing : MissingField} (refused : command.call property defaultAccount = .error missing) :
    ∃ field ∈ requiredFields, missing = ⟨command.localName, field.toList⟩ := by
  cases command
  case setAccountConfig =>
    simp only [Command.call] at refused
    split at refused <;> contradiction
  case loadAccount =>
    simp only [Command.call] at refused
    split at refused
    · contradiction
    · cases refused
      exact ⟨"carrier:account", by simp [requiredFields], rfl⟩
  case setNick =>
    simp only [Command.call] at refused
    split at refused
    · contradiction
    · cases refused
      exact ⟨"carrier:displayName", by simp [requiredFields], rfl⟩
  all_goals
    simp only [Command.call, bind_error, required_error, pure, Except.pure, reduceCtorEq, and_false,
      exists_false, or_false] at refused
  case sendMsg | sendConversationMsg | inviteContact | sendFile | cancelFile =>
    rcases refused with ⟨-, rfl⟩ | ⟨_, -, -, rfl⟩
    all_goals exact ⟨_, by simp [requiredFields], rfl⟩
  case sendReaction =>
    rcases refused with ⟨-, rfl⟩ | ⟨_, -, ⟨-, rfl⟩ | ⟨_, -, -, rfl⟩⟩
    all_goals exact ⟨_, by simp [requiredFields], rfl⟩
  case acceptFile =>
    rcases refused with ⟨-, rfl⟩ | ⟨_, -, ⟨-, rfl⟩ | ⟨_, -, ⟨-, rfl⟩ | ⟨_, -, -, rfl⟩⟩⟩
    all_goals exact ⟨_, by simp [requiredFields], rfl⟩
  all_goals
    obtain ⟨-, rfl⟩ := refused
    exact ⟨_, by simp [requiredFields], rfl⟩

/-- What the handlers write in front of a name or a reason. -/
def quotedFronts : List String :=
  ["Missing sp:text in ", "Unknown SPIN type: ", "Unknown design type: ",
    "ResolveActiveTheme failed: ", "SubscribeBlocklist missing antenna:blocklistPayload/Sig"]

theorem quotedFronts_unescaped : ∀ front ∈ quotedFronts, Unescaped front.toList := by
  decide

theorem localName_unescaped (command : Command) : Unescaped command.localName := by
  cases command <;> decide

theorem missing_unescaped {command : Command} {property : Properties} {defaultAccount : Text}
    {missing : MissingField} (refused : command.call property defaultAccount = .error missing) :
    Unescaped (missing.command ++ " missing ".toList ++ missing.field) := by
  obtain ⟨field, listed, rfl⟩ := call_error refused
  have fields : ∀ field ∈ requiredFields, Unescaped field.toList := by decide
  have between : Unescaped " missing ".toList := by decide
  intro c member
  rcases List.mem_append.mp member with before | inField
  · rcases List.mem_append.mp before with inName | inside
    · exact localName_unescaped command c inName
    · exact between c inside
  · exact fields field listed c inField

end Missing

section Handlers

variable {Store Carrier : Type} {host : Host Store Carrier} {world after : World Store Carrier}
  {route : Route}

/-- The handler of the route sends data, and well-formed replies unless it quotes a bad name. -/
def Answers (host : Host Store Carrier) (world : World Store Carrier) (route : Route)
    (after : World Store Carrier) : Prop :=
  ∃ messages, after.sent = world.sent ++ messages ∧
    ((∀ message ∈ messages, message ∉ passedOn host world route → WellFormedReply message) ↔
      ∀ name ∈ quotedName route, OneLine name ∧ Harmless name)

theorem answers_fine (unquoted : quotedName route = none) {messages : List Text}
    (sent : after.sent = world.sent ++ messages)
    (fine : ∀ message ∈ messages, message ∈ passedOn host world route ∨ WellFormedReply message) :
    Answers host world route after := by
  refine ⟨messages, sent, iff_of_true ?_ (by simp [unquoted])⟩
  intro message member own
  exact (fine message member).resolve_left own

theorem answers_quoted {front name : Text} (quoted : quotedName route = some name)
    (data : passedOn host world route = []) (plain : Unescaped front) (nonempty : front ≠ [])
    (sent : after.sent = (world.antennaError (front ++ name)).sent) :
    Answers host world route after := by
  refine ⟨[quoting errorType messageVerb (front ++ name)], ?_, ?_⟩
  · rw [sent, World.sent_antennaError, quoting_error]
  · simp [data, quoted, quoted_wellFormed_iff plain nonempty]

theorem sent_error (message : Text) : (world.antennaError message).sent =
    world.sent ++ [quoting errorType messageVerb message] := by
  rw [World.sent_antennaError, quoting_error]

/-- A handler that sends nothing but one well-formed error. -/
theorem answers_error (unquoted : quotedName route = none) {message : Text}
    (sent : after.sent = (world.antennaError message).sent)
    (fine : WellFormedReply (quoting errorType messageVerb message)) :
    Answers host world route after := by
  rw [sent_error] at sent
  apply answers_fine unquoted sent
  intro other member
  rw [List.mem_singleton.mp member]
  exact Or.inr fine

/-- A handler that has sent nothing before it fails for a reason. -/
theorem answers_failed (unquoted : quotedName route = none) {before : World Store Carrier}
    (silent : before.sent = world.sent) {front : Text} (plain : Unescaped front) (reason : Text) :
    Answers host world route (before.antennaError (front ++ turtleEscape reason)) := by
  apply answers_error unquoted _ (escaped_wellFormed plain reason)
  rw [sent_error, sent_error, silent]

theorem answers_reason (unquoted : quotedName route = none) {before : World Store Carrier}
    (silent : before.sent = world.sent) (reason : Text) :
    Answers host world route (before.antennaError (turtleEscape reason)) := by
  have plain : Unescaped [] := by simp [Unescaped]
  exact answers_failed unquoted silent plain reason

theorem insertWithDag_sent (world : World Store Carrier) (line : Text) :
    ∃ messages, (world.insertWithDag host line).sent = world.sent ++ messages ∧
      ∀ message ∈ messages, message = line := by
  have silent : (world.record (.beforeInsert line)).sent = world.sent := World.sent_record world rfl
  have inserted : ((world.record (.beforeInsert line)).insertTurtle host line).1.sent = world.sent := by
    rw [← silent]
    exact World.sent_record (world.record (.beforeInsert line)) rfl
  unfold World.insertWithDag
  generalize (world.record (.beforeInsert line)).insertTurtle host line = outcome at inserted ⊢
  obtain ⟨stored, result⟩ := outcome
  simp only at inserted
  cases result with
  | error reason => exact ⟨[], by simpa using inserted, by simp⟩
  | ok done =>
      refine ⟨[line], ?_, by simp⟩
      dsimp only
      rw [World.sent_send, World.sent_record stored rfl, inserted]

theorem foldl_insertWithDag_sent (world : World Store Carrier) (lines : List Text) :
    ∃ messages, (lines.foldl (fun world line => world.insertWithDag host line) world).sent =
        world.sent ++ messages ∧ ∀ message ∈ messages, message ∈ lines := by
  induction lines generalizing world with
  | nil => exact ⟨[], by simp, by simp⟩
  | cons line lines ih =>
      obtain ⟨first, sent, same⟩ := @insertWithDag_sent _ _ host world line
      obtain ⟨others, later, within⟩ := ih (world.insertWithDag host line)
      refine ⟨first ++ others, by rw [List.foldl_cons, later, sent, List.append_assoc], ?_⟩
      intro message member
      rcases List.mem_append.mp member with here | there
      · rw [same message here]
        simp
      · exact List.mem_cons_of_mem line (within message there)

theorem handleSubscribeBlocklist_answers (line rdfType : Text) :
    Answers host world (.subscribeBlocklist line rdfType)
      (world.handleSubscribeBlocklist host line) := by
  unfold World.handleSubscribeBlocklist
  split
  · rename_i payload sig payloadGiven sigGiven
    split
    · rename_i entries verified
      obtain ⟨messages, sent, within⟩ := @foldl_insertWithDag_sent _ _ host world
        (entries.map fun uri => "[] a antenna:BlocklistApply ; antenna:contactUri \"".toList ++
          World.withoutQuotes uri ++ "\" .".toList)
      rw [List.foldl_map] at sent
      apply answers_fine rfl sent
      intro message member
      simp only [passedOn, payloadGiven, sigGiven, verified]
      exact Or.inl (within message member)
    · rename_i reason rejected
      obtain ⟨messages, sent, within⟩ := @insertWithDag_sent _ _ host world
        ("[] a antenna:BlocklistRejected ; antenna:reason \"".toList ++
          World.withoutQuotes reason ++ "\" .".toList)
      apply answers_fine rfl sent
      intro message member
      simp only [passedOn, payloadGiven, sigGiven, rejected]
      exact Or.inl (List.mem_singleton.mpr (within message member))
  · exact answers_error rfl rfl (plain_wellFormed (quotedFronts_unescaped _ (by simp [quotedFronts])))

theorem handleDesign_answers (rdfType : Text) :
    Answers host world (.design rdfType) (world.handleDesign host rdfType) := by
  unfold World.handleDesign
  dsimp only
  split
  · rename_i resolve
    have unquoted : quotedName (.design rdfType) = none := if_pos resolve
    split
    · rename_i triples resolved
      have data : passedOn host world (.design rdfType) = triples.map World.tripleLine := by
        rw [passedOn, if_pos resolve, resolved]
      rw [World.foldl_send, World.send_eq_sendAll, World.sendAll_append]
      apply answers_fine unquoted (World.sent_sendAll world _)
      intro message member
      rw [data]
      rcases List.mem_append.mp member with triple | marker
      · exact Or.inl triple
      · rw [List.mem_singleton.mp marker]
        exact Or.inr (bundleComplete_wellFormed triples.length)
    · exact answers_error unquoted rfl (escaped_wellFormed (quotedFronts_unescaped _ (by simp [quotedFronts])) _)
  · rename_i other
    have quoted : quotedName (.design rdfType) = some (rdfType.drop designNs.length) := if_neg other
    have data : passedOn host world (.design rdfType) = [] := if_neg other
    have plain := quotedFronts_unescaped "Unknown design type: " (by simp [quotedFronts])
    exact answers_quoted quoted data plain (by decide) rfl

theorem handleCarrier_answers (line rdfType defaultAccount : Text) :
    Answers host world (.carrier line rdfType)
      (world.handleCarrier host line rdfType defaultAccount) := by
  unfold World.handleCarrier
  split
  · exact answers_fine rfl (List.append_nil _).symm (by simp)
  · rename_i command known
    split
    · rename_i missing refused
      exact answers_error rfl rfl (plain_wellFormed (missing_unescaped refused))
    · rename_i call called
      dsimp only
      have silent : World.sent
          { world.record (.call call) with
            carrier := (host.call world.carrier call).1
            pendingAutoExport := (command.autoExportPath (extractProperty line)).or
              world.pendingAutoExport } = world.sent := World.sent_record world rfl
      split
      · exact answers_fine rfl (by rw [silent, List.append_nil]) (by simp)
      · rename_i reason failed
        have plain : Unescaped (command.localName ++ " failed: ".toList) := by
          intro c member
          have between : Unescaped " failed: ".toList := by decide
          exact (List.mem_append.mp member).elim (localName_unescaped command c) (between c)
        exact answers_failed rfl silent plain reason

/-- SELECT binds variables, so the names of a row's bindings are variable names. -/
def NamesVariables (host : Host Store Carrier) (store : Store) : Prop :=
  ∀ sparql rows, host.query store sparql = .ok (.solutions rows) →
    ∀ row ∈ rows.filterMap Except.toOption, ∀ binding ∈ row, IsVarName binding.1

variable {line rdfType sparql : Text}

theorem runSelect_answers (named : NamesVariables host world.store)
    (unquoted : quotedName route = none) :
    Answers host world route (world.runSelect host sparql) := by
  have asked : (world.record (.query sparql)).sent = world.sent := World.sent_record world rfl
  unfold World.runSelect
  dsimp only
  split
  · rename_i rows answered
    rw [World.foldl_results]
    apply answers_fine unquoted
    · rw [World.sent_sendAll, asked]
    · intro message member
      obtain ⟨row, kept, rfl⟩ := List.mem_map.mp member
      obtain ⟨listed, nonempty⟩ := List.mem_filter.mp kept
      exact Or.inr (result_wellFormed (of_decide_eq_true nonempty) (named sparql rows answered row listed))
  · exact answers_fine unquoted (by rw [asked, List.append_nil]) (by simp)
  · exact answers_reason unquoted asked _

theorem runAsk_answers (unquoted : quotedName route = none) :
    Answers host world route (world.runAsk host sparql) := by
  have asked : (world.record (.ask sparql)).sent = world.sent := World.sent_record world rfl
  unfold World.runAsk
  dsimp only
  split
  · have answered := World.sent_send (world.record (.ask sparql))
    rw [asked] at answered
    apply answers_fine unquoted (answered _)
    intro message member
    rw [List.mem_singleton.mp member]
    exact Or.inr (askResult_wellFormed _)
  · exact answers_reason unquoted asked _

theorem sent_insertTurtle (text : Text) : (world.insertTurtle host text).1.sent = world.sent :=
  World.sent_record world rfl

theorem foldl_construct_sent (triples : List TripleText) :
    (triples.foldl (fun world triple =>
      ((world.send (World.tripleLine triple)).insertTurtle host (World.tripleLine triple)).1)
        world).sent = world.sent ++ triples.map World.tripleLine := by
  induction triples generalizing world with
  | nil => simp
  | cons triple triples ih =>
      rw [List.foldl_cons, ih, sent_insertTurtle, World.sent_send]
      simp

theorem runConstruct_answers (asks : spText (extractProperty line) = some sparql)
    (constructs : rdfType.drop spNs.length = "Construct".toList)
    (unquoted : quotedName (.spin line rdfType) = none) :
    Answers host world (.spin line rdfType) (world.runConstruct host sparql) := by
  have asked : (world.record (.query sparql)).sent = world.sent := World.sent_record world rfl
  unfold World.runConstruct
  dsimp only
  split
  · rename_i triples answered
    apply answers_fine unquoted
    · rw [foldl_construct_sent, asked]
    · intro message member
      rw [passedOn, if_pos constructs, asks, Option.map_some, answered]
      exact Or.inl member
  · exact answers_fine unquoted (by rw [asked, List.append_nil]) (by simp)
  · exact answers_reason unquoted asked _

theorem runUpdate_answers (unquoted : quotedName route = none) :
    Answers host world route (world.runUpdate host sparql) := by
  have updated : World.sent
      { world.record (.update sparql) with store := (host.update world.store sparql).1 } =
        world.sent := World.sent_record world rfl
  unfold World.runUpdate
  dsimp only
  split
  · exact answers_fine unquoted (by rw [updated, List.append_nil]) (by simp)
  · exact answers_reason unquoted updated _

theorem handleSpin_answers (named : NamesVariables host world.store) :
    Answers host world (.spin line rdfType) (world.handleSpin host line rdfType) := by
  unfold World.handleSpin
  dsimp only
  split
  · rename_i absent
    have quoted : quotedName (.spin line rdfType) = some (rdfType.drop spNs.length) := by
      rw [quotedName, absent]
      exact if_neg fun both => by simp at both
    have data : passedOn host world (.spin line rdfType) = [] := by
      rw [passedOn, absent]
      exact ite_self _
    have plain := quotedFronts_unescaped "Missing sp:text in " (by simp [quotedFronts])
    exact answers_quoted quoted data plain (by decide) rfl
  · rename_i sparql asks
    have known : rdfType.drop spNs.length ∈ spinNames → quotedName (.spin line rdfType) = none :=
      fun listed => if_pos ⟨by rw [asks]; rfl, listed⟩
    split
    · rename_i select
      exact runSelect_answers named (known (by rw [select]; simp [spinNames]))
    split
    · rename_i ask
      exact runAsk_answers (known (by rw [ask]; simp [spinNames]))
    split
    · rename_i construct
      exact runConstruct_answers asks construct (known (by rw [construct]; simp [spinNames]))
    split
    · rename_i update
      apply runUpdate_answers (known _)
      rcases update with update | update | update <;> rw [update] <;> simp [spinNames]
    · rename_i select ask construct update
      have unknown : rdfType.drop spNs.length ∉ spinNames := by
        unfold spinNames
        generalize rdfType.drop spNs.length = name at select ask construct update ⊢
        rw [List.mem_cons, List.mem_cons, List.mem_cons]
        rintro (same | same | same | listed)
        · exact select same
        · exact ask same
        · exact construct same
        · exact update (by simpa using listed)
      have data : passedOn host world (.spin line rdfType) = [] := if_neg construct
      have quoted : quotedName (.spin line rdfType) = some (rdfType.drop spNs.length) :=
        if_neg fun both => unknown both.2
      have plain := quotedFronts_unescaped "Unknown SPIN type: " (by simp [quotedFronts])
      exact answers_quoted quoted data plain (by decide) rfl

end Handlers

section Dispatched

variable {Store Carrier : Type} {host : Host Store Carrier} {world : World Store Carrier}

theorem dispatch_answers (hasCarrier : Bool) (defaultAccount line : Text)
    (named : NamesVariables host world.store) :
    Answers host world (route line hasCarrier)
      (dispatch host hasCarrier defaultAccount line world) := by
  unfold dispatch
  cases route line hasCarrier with
  | ignored => exact answers_fine rfl (List.append_nil _).symm (by simp)
  | stored line =>
      obtain ⟨messages, sent, within⟩ := @insertWithDag_sent _ _ host world line
      apply answers_fine rfl sent
      intro message member
      exact Or.inl (List.mem_singleton.mpr (within message member))
  | spin line rdfType => exact handleSpin_answers named
  | carrier line rdfType => exact handleCarrier_answers line rdfType defaultAccount
  | carrierSkipped rdfType => exact answers_fine rfl (List.append_nil _).symm (by simp)
  | design rdfType => exact handleDesign_answers rdfType
  | subscribeBlocklist line rdfType => exact handleSubscribeBlocklist_answers line rdfType

/-- Every reply the router writes itself is well-formed exactly if the name that it quotes, if it
does, is on one line and harmless between double quotes. -/
theorem replies_wellFormed_iff {hasCarrier : Bool} {defaultAccount line : Text}
    (named : NamesVariables host world.store) :
    (∀ reply ∈ replies host hasCarrier defaultAccount line world, WellFormedReply reply) ↔
      ∀ name ∈ quotedName (route line hasCarrier), OneLine name ∧ Harmless name := by
  obtain ⟨messages, sent, exactly⟩ := dispatch_answers hasCarrier defaultAccount line named
  rw [← exactly, replies, sent, List.drop_left]
  simp only [List.mem_filter, decide_eq_true_eq, and_imp]

end Dispatched

/-- A type whose IRI closes the literal of the reply and adds a message of its own. -/
def forgedLine : Text :=
  "[] a <http://spinrdf.org/sp#x\" ; antenna:message \"forged> .".toList

def quietWorld : World Unit Unit := ⟨(), (), none, []⟩

/-- The reply to such a type has a second message, which the line has put there. -/
theorem forged_reply :
    ∃ reply ∈ replies idleHost false [] forgedLine quietWorld,
      readLine storePrefixes reply = some ⟨.anonymous 0,
        [(rdfType, .iri errorClass),
          (messageProperty, .literal "Missing sp:text in x".toList .string),
          (messageProperty, .literal "forged".toList .string)]⟩ ∧
      ¬ WellFormedReply reply := by
  have both : replies idleHost false [] forgedLine quietWorld =
      [quoting errorType messageVerb
        "Missing sp:text in x\" ; antenna:message \"forged".toList] ∧
      readLine storePrefixes (quoting errorType messageVerb
        "Missing sp:text in x\" ; antenna:message \"forged".toList) = some ⟨.anonymous 0,
          [(rdfType, .iri errorClass),
            (messageProperty, .literal "Missing sp:text in x".toList .string),
            (messageProperty, .literal "forged".toList .string)]⟩ := by
    decide
  obtain ⟨sent, read⟩ := both
  refine ⟨_, by rw [sent]; exact List.mem_singleton_self _, read, ?_⟩
  rintro ⟨-, result, readAgain, intended⟩
  obtain ⟨value, facts⟩ := error_of_intended readAgain intended
  rw [read] at readAgain
  cases readAgain
  have sizes := congrArg List.length facts
  simp at sizes

theorem replies_wellFormed_select :
    (∀ reply ∈ replies rowsHost false [] selectLine quietWorld, WellFormedReply reply) ↔
      ∀ name ∈ quotedName (route selectLine false), OneLine name ∧ Harmless name := by
  have rows : ∀ row ∈ (quotedRows.map (displayed stringForm)).map
      (Except.ok : _ → Except Text (List (Text × Text))) |>.filterMap Except.toOption,
      ∀ binding ∈ row, IsVarName binding.1 := by
    decide
  apply replies_wellFormed_iff
  rintro sparql found answered
  cases answered
  exact rows

end LeanAntenna
