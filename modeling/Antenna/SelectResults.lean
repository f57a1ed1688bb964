import Antenna.DispatchReplies
import Antenna.EventReading
import Antenna.Library.TurtleWriter

/-!
The rows of a SELECT on the wire: each term in its N-Triples form, escaped once more into a literal
of the row's message.
-/

namespace LeanAntenna

open Text Turtle

/-- `PN_CHARS_U` and the digits, with which a `VARNAME` starts. -/
def startsVarName (c : Char) : Bool := isLetter c || c == '_' || c.isDigit

/-- The characters of a `VARNAME`: name characters without the hyphen. -/
def isVarChar (c : Char) : Bool := isNameChar c && c != '-'

def IsVarName (name : Text) : Prop :=
  (∃ c ∈ name.head?, startsVarName c = true) ∧ ∀ c ∈ name, isVarChar c = true

instance (name : Text) : Decidable (IsVarName name) := inferInstanceAs (Decidable (_ ∧ _))

/-- The N-Triples form of terms, from which each is parsed back. -/
structure NTriples (Term : Type) where
  display : Term → Text
  parse : Text → Option Term
  parse_display : ∀ term, parse (display term) = some term

def varNs : Text := antennaNs ++ "var_".toList

section Reading

variable {Term : Type} (form : NTriples Term)

/-- A solution as the router gets it, with its terms displayed. -/
def displayed (row : List (Text × Term)) : List (Text × Text) :=
  row.map fun (name, term) => (name, form.display term)

def bindingProperty (name term : Text) : Property where
  verb := .prefixed "antenna".toList ("var_".toList ++ name)
  object := quotedToken term
  predicate := varNs ++ name
  term := .literal term .string

def resultType : Name := .prefixed "antenna".toList "Result".toList

def resultClass : Text := antennaNs ++ "Result".toList

/-- The variable and the term of one fact of a row's message. -/
def readBinding : Text × Turtle.Term → Option (Text × Term)
  | (predicate, .literal value .string) =>
      if varNs <+: predicate then
        (form.parse value).map fun term => (predicate.drop varNs.length, term)
      else none
  | _ => none

/-- The bindings that a row's message shows to a reader of Turtle and N-Triples. -/
def readResult (message : Text) : Option (List (Text × Term)) :=
  (Turtle.read storePrefixes message).bind fun statement =>
    match statement.facts with
    | (predicate, .iri type) :: bindings =>
        if predicate = Turtle.rdfType ∧ type = resultClass then bindings.mapM (readBinding form)
        else none
    | _ => none

theorem bindingProperty_text (name term : Text) :
    (bindingProperty name term).text =
      " ; ".toList ++ ("antenna:var_".toList ++ name ++ " \"".toList ++ turtleEscape term ++
        "\"".toList) := by
  rw [turtleEscape_eq_eventEscape]
  simp only [Property.text, bindingProperty, Name.text, quotedToken, Token.text, Quote.text,
    Suffix.text, List.append_nil]
  simp

/-- The message of a row with bindings is a description. -/
theorem resultLine_eq {row : List (Text × Text)} (bound : row ≠ []) :
    World.resultLine row =
      describe resultType (row.map fun (name, term) => bindingProperty name term) := by
  have parts : (row.map fun (name, term) => bindingProperty name term).flatMap Property.text =
      (row.map fun (name, term) => "antenna:var_".toList ++ name ++ " \"".toList ++
        turtleEscape term ++ "\"".toList).flatMap (" ; ".toList ++ ·) := by
    rw [List.flatMap_map, List.flatMap_map]
    congr 1
    funext binding
    exact bindingProperty_text binding.1 binding.2
  unfold describe
  rw [parts, ← separator_intercalate (by simpa using bound)]
  unfold World.resultLine
  dsimp only
  rw [← List.append_assoc _ (" ; ".toList)]
  rfl

theorem antenna_label : ∀ c ∈ "antenna".toList, isNameChar c = true := by decide

theorem antenna_known : storePrefixes "antenna".toList = some antennaNs := by decide

section Names

variable {name : Text}

theorem varName_parts (named : IsVarName name) : ∀ c ∈ "var_".toList ++ name, isNameChar c = true := by
  have start : ∀ c ∈ "var_".toList, isNameChar c = true := by decide
  intro c member
  rcases List.mem_append.mp member with inside | inside
  · exact start c inside
  · have part := named.2 c inside
    rw [isVarChar, Bool.and_eq_true] at part
    exact part.1

theorem bindingProperty_sound (named : IsVarName name) (term : Text) :
    (bindingProperty name term).Sound storePrefixes where
  verbReadable := prefixed_readable antenna_label (varName_parts named) (by decide)
  objectReadable := (quotedToken_writes term).readable
  names := by
    have iri := prefixed_iri antenna_known rfl (varName_parts named)
    rw [← List.append_assoc] at iri
    exact iri
  denotes := (quotedToken_writes term).denotes
  constant := (quotedToken_writes term).constant

theorem bindingProperty_oneLine (named : IsVarName name) (term : Text) :
    ∀ c ∈ (bindingProperty name term).text, c ∉ ['\n', '\r'] := by
  have opening : ∀ c ∈ " ; ".toList, c ∉ ['\n', '\r'] := by decide
  intro c member
  unfold Property.text at member
  rw [List.mem_append, List.mem_append, List.mem_cons] at member
  rcases member with (start | verb) | rfl | object
  · exact opening c start
  · exact prefixed_oneLine antenna_label (varName_parts named) c verb
  · decide
  · exact (quotedToken_writes term).oneLine c object

end Names

variable {form}

theorem readBinding_displayed (name : Text) (term : Term) :
    readBinding form (bindingProperty name (form.display term)).fact = some (name, term) := by
  have front : varNs <+: varNs ++ name := List.prefix_append _ _
  unfold Property.fact bindingProperty readBinding
  simp only
  rw [if_pos front, form.parse_display, List.drop_left]
  rfl

theorem mapM_readBinding (row : List (Text × Term)) :
    (((displayed form row).map fun (name, term) => bindingProperty name term).map
      Property.fact).mapM (readBinding form) = some row := by
  induction row with
  | nil => rfl
  | cons binding row ih =>
      obtain ⟨name, term⟩ := binding
      rw [displayed] at ih ⊢
      rw [List.map_cons, List.map_cons, List.map_cons, List.mapM_cons]
      rw [readBinding_displayed, ih]
      rfl

/-- A row's message is read back as the row. -/
theorem readResult_resultLine {row : List (Text × Term)} (bound : row ≠ [])
    (named : ∀ binding ∈ row, IsVarName binding.1) :
    readResult form (World.resultLine (displayed form row)) = some row := by
  have result : ∀ c ∈ "Result".toList, isNameChar c = true := by decide
  have sound : ∀ property ∈ (displayed form row).map fun (name, term) => bindingProperty name term,
      property.Sound storePrefixes := by
    intro property member
    obtain ⟨shown, inRow, rfl⟩ := List.mem_map.mp member
    obtain ⟨binding, listed, rfl⟩ := List.mem_map.mp inRow
    exact bindingProperty_sound (named binding listed) _
  have readable : resultType.Readable := prefixed_readable antenna_label result (by decide)
  have names : resultType.iri storePrefixes = some resultClass :=
    prefixed_iri antenna_known rfl result
  unfold readResult
  rw [resultLine_eq (by simpa [displayed] using bound), read_describe readable names sound,
    Option.bind_some]
  dsimp only
  rw [if_pos ⟨rfl, rfl⟩]
  exact mapM_readBinding row

theorem resultLine_oneLine {row : List (Text × Term)} (bound : row ≠ [])
    (named : ∀ binding ∈ row, IsVarName binding.1) :
    ∀ c ∈ World.resultLine (displayed form row), c ∉ ['\n', '\r'] := by
  rw [resultLine_eq (by simpa [displayed] using bound)]
  apply describe_oneLine
  · exact prefixed_oneLine antenna_label (by decide)
  · intro property member
    obtain ⟨shown, inRow, rfl⟩ := List.mem_map.mp member
    obtain ⟨binding, listed, rfl⟩ := List.mem_map.mp inRow
    exact bindingProperty_oneLine (named binding listed) _

theorem resultLine_injective {left right : List (Text × Term)} (leftBound : left ≠ [])
    (rightBound : right ≠ []) (leftNamed : ∀ binding ∈ left, IsVarName binding.1)
    (rightNamed : ∀ binding ∈ right, IsVarName binding.1)
    (same : World.resultLine (displayed form left) = World.resultLine (displayed form right)) :
    left = right := by
  have read : readResult form (World.resultLine (displayed form left)) = some left :=
    readResult_resultLine leftBound leftNamed
  rw [same, readResult_resultLine rightBound rightNamed] at read
  exact (Option.some.inj read).symm

end Reading

section Select

variable {Store Carrier Term : Type} {host : Host Store Carrier} {world : World Store Carrier}
  {form : NTriples Term}

theorem runSelect_solutions {sparql : Text} {rows : List (List (Text × Text))}
    (answered : host.query world.store sparql = .ok (.solutions (rows.map .ok))) :
    world.runSelect host sparql =
      (world.record (.query sparql)).sendAll ((rows.filter (· ≠ [])).map World.resultLine) := by
  have kept : (rows.map (Except.ok : _ → Except Text _)).filterMap Except.toOption = rows := by
    rw [List.filterMap_map]
    exact List.filterMap_some
  unfold World.runSelect
  dsimp only
  rw [answered]
  dsimp only
  rw [kept, World.foldl_results]

/-- The rows of a SELECT with bindings are sent in order, one line each, from which each row is read
back; so no two rows have the same message. -/
theorem select_results_survive {line sparql : Text} {rows : List (List (Text × Term))}
    (asked : spText (extractProperty line) = some sparql)
    (answered : host.query world.store sparql =
      .ok (.solutions ((rows.map (displayed form)).map .ok)))
    (named : ∀ row ∈ rows, ∀ binding ∈ row, IsVarName binding.1) :
    (∃ messages, (world.handleSpin host line (spNs ++ "Select".toList)).sent =
        world.sent ++ messages ∧
      messages.map (readResult form) = (rows.filter (· ≠ [])).map some ∧
      ∀ message ∈ messages, ∀ c ∈ message, c ∉ ['\n', '\r']) ∧
    ∀ left right : List (Text × Term), left ≠ [] → right ≠ [] →
      (∀ binding ∈ left, IsVarName binding.1) → (∀ binding ∈ right, IsVarName binding.1) →
      World.resultLine (displayed form left) = World.resultLine (displayed form right) →
        left = right := by
  have name : (spNs ++ "Select".toList).drop spNs.length = "Select".toList := List.drop_left
  have bound : (rows.map (displayed form)).filter (· ≠ []) =
      (rows.filter (· ≠ [])).map (displayed form) := by
    rw [List.filter_map]
    congr 1
    apply List.filter_congr
    intro row _
    simp [displayed]
  refine ⟨⟨(rows.filter (· ≠ [])).map (World.resultLine ∘ displayed form), ?_, ?_, ?_⟩, ?_⟩
  · unfold World.handleSpin
    rw [asked, name]
    dsimp only
    rw [if_pos rfl, runSelect_solutions answered, World.sent_sendAll, World.sent_record _ rfl, bound,
      List.map_map]
  · rw [List.map_map]
    apply List.map_congr_left
    intro row member
    obtain ⟨listed, nonempty⟩ := List.mem_filter.mp member
    exact readResult_resultLine (of_decide_eq_true nonempty) (named row listed)
  · intro message member
    obtain ⟨row, kept, rfl⟩ := List.mem_map.mp member
    obtain ⟨listed, nonempty⟩ := List.mem_filter.mp kept
    exact resultLine_oneLine (of_decide_eq_true nonempty) (named row listed)
  · intro left right leftBound rightBound leftNamed rightNamed same
    exact resultLine_injective leftBound rightBound leftNamed rightNamed same

/-- String literals in N-Triples. -/
def stringForm : NTriples Text where
  display value := '"' :: eventEscape value ++ ['"']
  parse text :=
    match readToken text with
    | some (.literal .double raw .plain, []) => unescape raw
    | _ => none
  parse_display := by
    intro value
    have read : readToken ((quotedToken value).text ++ []) = some (quotedToken value, []) :=
      readToken_text (quotedToken_writes value).readable (by simp)
    have shown : (quotedToken value).text ++ [] = '"' :: eventEscape value ++ ['"'] := by
      simp [quotedToken, Token.text, Quote.text, Suffix.text]
    rw [shown] at read
    rw [read]
    exact unescape_eventEscape value

def quotedRows : List (List (Text × Text)) :=
  [[("x".toList, "say \"no\"\n".toList), ("y_1".toList, "\\".toList)], []]

/-- A store that answers every query with the rows. -/
def rowsHost : Host Unit Unit where
  query _ _ := .ok (.solutions ((quotedRows.map (displayed stringForm)).map .ok))
  update store _ := (store, .ok ())
  insertTurtle store _ := (store, .ok ())
  resolveActiveTheme _ := .ok []
  verifySignedBlocklist _ _ := .ok []
  call _ _ := ((), .ok [])

def selectLine : Text := "[] a sp:Select ; sp:text \"SELECT\" .".toList

theorem select_results_survive_quotes :
    (∃ messages, ((⟨(), (), none, []⟩ : World Unit Unit).handleSpin rowsHost selectLine
        (spNs ++ "Select".toList)).sent = [] ++ messages ∧
      messages.map (readResult stringForm) = (quotedRows.filter (· ≠ [])).map some ∧
      ∀ message ∈ messages, ∀ c ∈ message, c ∉ ['\n', '\r']) ∧
    ∀ left right : List (Text × Text), left ≠ [] → right ≠ [] →
      (∀ binding ∈ left, IsVarName binding.1) → (∀ binding ∈ right, IsVarName binding.1) →
      World.resultLine (displayed stringForm left) = World.resultLine (displayed stringForm right) →
        left = right := by
  have asked : spText (extractProperty selectLine) = some "SELECT".toList := by decide
  have named : ∀ row ∈ quotedRows, ∀ binding ∈ row, IsVarName binding.1 := by decide
  exact select_results_survive asked rfl named

end Select

end LeanAntenna
