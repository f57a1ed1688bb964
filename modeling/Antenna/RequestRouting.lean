import Antenna.CommandArguments
import Antenna.DispatchSteps
import Antenna.PropertyChecks
import Antenna.EventReading
import Mathlib.Data.List.Nodup

/-!
How a request's line reaches its handler: the class is the first one the router finds, and what the
handler then does is the request's execution.
-/

namespace LeanAntenna

open Text Turtle

namespace Request

def label : Request → Text
  | .carrier _ => "carrier".toList
  | .spin _ => "sp".toList

def ns : Request → Text
  | .carrier _ => carrierNs
  | .spin _ => spNs

def localName : Request → Text
  | .carrier command => command.localName
  | .spin form => form.localName

/-- The class of a request. -/
def iri (request : Request) : Text := request.ns ++ request.localName

/-- The two ways to write the class. -/
def spellings (request : Request) : List Text :=
  [request.label ++ ':' :: request.localName, '<' :: request.iri ++ ['>']]

end Request

section Names

/-- Names hold none of the characters of an escape, and go on in lower case behind a colon or a
hash, where class names do not. -/
theorem written_shape (name : PropertyName) :
    IsName name.written ∧ (∀ c ∈ name.written ++ [' '], c ∉ ['"', '\\']) ∧
      (∀ c ∈ (name.written ++ [' ']).head?, c ∉ ['n', 'r']) ∧
      ∀ pair ∈ name.written.zip name.written.tail, pair.1 ∈ [':', '#'] → pair.2.isUpper = false := by
  cases name <;> decide

theorem written_isName (name : PropertyName) : IsName name.written := (written_shape name).1

theorem written_plain (name : PropertyName) :
    (∀ c ∈ name.written ++ [' '], c ∉ ['"', '\\']) ∧
      ∀ c ∈ (name.written ++ [' ']).head?, c ∉ ['n', 'r'] :=
  ⟨(written_shape name).2.1, (written_shape name).2.2.1⟩

theorem written_lowered (name : PropertyName) :
    ∀ pair ∈ name.written.zip name.written.tail, pair.1 ∈ [':', '#'] → pair.2.isUpper = false :=
  (written_shape name).2.2.2

theorem localName_capitalised (request : Request) :
    (∀ c ∈ request.localName, c.isAlpha = true) ∧
      request.localName.head?.any Char.isUpper = true := by
  cases request with
  | carrier command => cases command <;> decide
  | spin form => cases form <;> decide

theorem adjacent_mem_zip (front rest : Text) (c d : Char) :
    (c, d) ∈ (front ++ c :: d :: rest).zip (front ++ c :: d :: rest).tail := by
  induction front with
  | nil => simp
  | cons e front ih =>
      cases front with
      | nil => simp
      | cons f front => exact List.mem_cons_of_mem _ ih

theorem not_suffix_class (name : PropertyName) (request : Request) (front tail : Text) {m : Char}
    (marks : m ∈ [':', '#']) (unmarked : ':' ∉ tail ∧ '<' ∉ tail) :
    ¬ name.written <:+ front ++ m :: (request.localName ++ tail) := by
  obtain ⟨letters, capital⟩ := localName_capitalised request
  obtain ⟨c, more, split⟩ : ∃ c more, request.localName = c :: more := by
    cases named : request.localName with
    | nil => simp [named] at capital
    | cons c more => exact ⟨c, more, rfl⟩
  have upper : c.isUpper = true := by simpa [split] using capital
  have clash : ¬ m :: (request.localName ++ tail) <:+ name.written := by
    rintro ⟨early, same⟩
    have near := adjacent_mem_zip early (more ++ tail) m c
    rw [show early ++ m :: c :: (more ++ tail) = name.written by rw [← same, split]; rfl] at near
    exact absurd upper (by simp [written_lowered name _ near marks])
  intro ends
  rcases List.suffix_or_suffix_of_suffix ends (List.suffix_append _ _) with short | long
  · rcases List.suffix_cons_iff.mp short with same | inside
    · exact clash (same ▸ List.suffix_rfl)
    · refine not_suffix_of_marked (written_isName name) ?_ inside
      constructor
      all_goals
        rw [List.mem_append, not_or]
        first
          | exact ⟨fun member => absurd (letters _ member) (by decide), unmarked.1⟩
          | exact ⟨fun member => absurd (letters _ member) (by decide), unmarked.2⟩
  · exact clash long

theorem not_suffix_spelling (name : PropertyName) {request : Request} {type : Text}
    (spelled : type ∈ request.spellings) : ¬ name.written <:+ type := by
  simp only [Request.spellings, List.mem_cons, List.not_mem_nil, or_false] at spelled
  rcases spelled with rfl | rfl
  · have apart := not_suffix_class name request request.label [] (m := ':') (by simp) (by simp)
    simpa using apart
  · have carrier : carrierNs = "http://resonator.network/v2/carrier".toList ++ ['#'] := by decide
    have spin : spNs = "http://spinrdf.org/sp".toList ++ ['#'] := by decide
    obtain ⟨front, split⟩ : ∃ front, request.ns = front ++ ['#'] := by
      cases request with
      | carrier command => exact ⟨_, carrier⟩
      | spin form => exact ⟨_, spin⟩
    have apart := not_suffix_class name request ('<' :: front) ['>'] (m := '#') (by simp) (by decide)
    simpa [Request.iri, split] using apart

end Names

section Routed

theorem iri_closed (request : Request) : '>' ∉ request.iri := by
  have carrier : '>' ∉ carrierNs := by decide
  have spin : '>' ∉ spNs := by decide
  rw [Request.iri, List.mem_append, not_or]
  constructor
  · cases request with
    | carrier command => exact carrier
    | spin form => exact spin
  · exact fun inside => absurd ((localName_capitalised request).1 _ inside) (by decide)

theorem label_namespace (request : Request) :
    (typeNamespace request.label).map (· ++ request.localName) = some request.iri := by
  cases request <;> rfl

theorem isAlpha_visible {c : Char} (letter : c.isAlpha = true) :
    c ∉ [' ', ';', '.', '<'] ∧ isWhitespace c = false := by
  obtain ⟨-, -, unlike, visible⟩ := isAlpha_cases letter
  simp only [List.mem_cons, List.not_mem_nil, or_false, not_or] at unlike ⊢
  exact ⟨by tauto, visible⟩

theorem prefixed_visible (request : Request) :
    ∀ c ∈ request.label ++ ':' :: request.localName,
      c ∉ [' ', ';', '.', '<'] ∧ isWhitespace c = false := by
  have carrier : ∀ c ∈ "carrier".toList, c.isAlpha = true := by decide
  have spin : ∀ c ∈ "sp".toList, c.isAlpha = true := by decide
  intro c member
  rw [List.mem_append, List.mem_cons] at member
  rcases member with inLabel | rfl | inName
  · cases request with
    | carrier command => exact isAlpha_visible (carrier c inLabel)
    | spin form => exact isAlpha_visible (spin c inLabel)
  · decide
  · exact isAlpha_visible ((localName_capitalised request).1 c inName)

theorem classAt_prefixed (request : Request) (rest : Text) :
    classAt (trimStart (request.label ++ ':' :: request.localName ++ ' ' :: rest)) =
      some request.iri := by
  have visible := prefixed_visible request
  have carrier : ':' ∉ "carrier".toList := by decide
  have spin : ':' ∉ "sp".toList := by decide
  have unmarked : ':' ∉ request.label := by
    cases request with
    | carrier command => exact carrier
    | spin form => exact spin
  generalize named : request.label ++ ':' :: request.localName = word at visible ⊢
  obtain ⟨c, more, rfl⟩ : ∃ c more, word = c :: more := by
    cases word with
    | nil => simp at named
    | cons c more => exact ⟨c, more, rfl⟩
  have first := visible c (by simp)
  have trimmed : trim (c :: more) = c :: more := by
    refine trim_eq_self (fun d head => ?_) fun d last => (visible d (List.mem_of_getLast? last)).2
    exact (visible d (List.mem_of_head? head)).2
  have clear : ∀ d ∈ c :: more, d ∉ [' ', ';', '.'] := fun d member listed =>
    (visible d member).1 (by simp at listed ⊢; tauto)
  have unbracketed : (c :: more ++ ' ' :: rest).head? ≠ some '<' := by
    simp only [List.cons_append, List.head?_cons, ne_eq, Option.some.injEq]
    rintro rfl
    simp at first
  have kept : trimStart (c :: more ++ ' ' :: rest) = c :: more ++ ' ' :: rest :=
    trimStart_cons first.2
  rw [kept, classAt, if_neg unbracketed, firstPiece_append (by simp) clear, trimmed, ← named,
    splitOnce_first unmarked]
  exact label_namespace request

theorem classAt_spelling {request : Request} {type : Text} (spelled : type ∈ request.spellings)
    (rest : Text) : classAt (trimStart (type ++ ' ' :: rest)) = some request.iri := by
  simp only [Request.spellings, List.mem_cons, List.not_mem_nil, or_false] at spelled
  rcases spelled with rfl | rfl
  · exact classAt_prefixed request rest
  · have closed : '>' ∉ '<' :: request.iri := by simp [iri_closed request]
    have found : find ('<' :: request.iri ++ '>' :: ' ' :: rest) ['>'] =
        some ('<' :: request.iri, ' ' :: rest) := splitOnce_first closed
    have text : '<' :: request.iri ++ ['>'] ++ ' ' :: rest =
        '<' :: request.iri ++ '>' :: ' ' :: rest := by simp
    rw [text, List.cons_append, trimStart_cons (by decide), ← List.cons_append, classAt,
      if_pos (by rfl), found]
    rfl

theorem extractType_command {line : CommandLine} {request : Request}
    (spelled : line.type ∈ request.spellings) : extractType line.text = some request.iri := by
  obtain ⟨front, split⟩ := propertiesText_ends line.properties
  have trimmed : trim line.text = line.text :=
    trim_of_ends (by simp [CommandLine.text]; rfl)
      ⟨'[' :: ']' :: ' ' :: 'a' :: ' ' :: line.type ++ ' ' :: front, by simp [CommandLine.text, split]⟩
  have found : find line.text " a ".toList =
      some (['[', ']'], line.type ++ ' ' :: propertiesText line.properties) := by
    have verb : " a ".toList = [' ', 'a', ' '] := by decide
    rw [verb, CommandLine.text]
    simp only [List.cons_append]
    rw [find_later _ (by simp), find_later _ (by simp)]
    have here := find_here [' ', 'a', ' '] (line.type ++ ' ' :: propertiesText line.properties)
    simp only [List.cons_append, List.nil_append] at here
    rw [here]
    rfl
  rw [extractType, trimmed, found, Option.bind_some, classAt_spelling spelled]

theorem route_command {line : CommandLine} {request : Request}
    (spelled : line.type ∈ request.spellings) :
    route line.text true = routeOfType line.text request.iri true := by
  have stripped : stripLeadingDirectives line.text = line.text := by
    rw [stripLeadingDirectives, CommandLine.text]
    simp only [List.cons_append]
    rw [trimStart_cons (by decide), List.length_cons, stripDirectives, if_neg (by simp)]
  have typed := extractType_command spelled
  rw [route, if_neg (by simp [CommandLine.text]), stripped]
  simp only [typed]
  rw [if_neg (by simp [CommandLine.text])]

theorem ofLocal_localName (command : Command) : Command.ofLocal command.localName = some command := by
  have listed : command ∈ Command.all := by cases command <;> decide
  have distinct : (Command.all.map Command.localName).Nodup := by decide
  cases found : Command.ofLocal command.localName with
  | none =>
      have missing := List.find?_eq_none.mp found command listed
      simp at missing
  | some other =>
      have named : other.localName = command.localName := by simpa using List.find?_some found
      rw [List.inj_on_of_nodup_map distinct (List.mem_of_find?_eq_some found) listed named]

end Routed

section Dispatched

variable {Store Carrier : Type}

theorem handleSpin_form (world : World Store Carrier) (host : Host Store Carrier)
    {line : Text} (form : SpinForm) {sparql : Text}
    (given : spText (extractProperty line) = some sparql) :
    Continues (world.record (form.effect sparql))
      (world.handleSpin host line (Request.spin form).iri) := by
  have name : (Request.spin form).iri.drop spNs.length = form.localName := List.drop_left
  unfold World.handleSpin
  dsimp only
  rw [name, given]
  dsimp only
  have ask : SpinForm.ask.localName ≠ "Select".toList := by decide
  have construct : SpinForm.construct.localName ≠ "Select".toList ∧
      SpinForm.construct.localName ≠ "Ask".toList := by decide
  have updates : ∀ form ∈ [SpinForm.insertData, .deleteData, .modify],
      form.localName ≠ "Select".toList ∧ form.localName ≠ "Ask".toList ∧
        form.localName ≠ "Construct".toList := by decide
  cases form with
  | select =>
      rw [if_pos (by rfl)]
      exact (adds_runSelect world host sparql).continues
  | ask =>
      rw [if_neg ask, if_pos (by rfl)]
      exact (adds_runAsk world host sparql).continues
  | construct =>
      rw [if_neg construct.1, if_neg construct.2, if_pos (by rfl)]
      exact (adds_runConstruct world host sparql).continues
  | insertData =>
      obtain ⟨select, ask, construct⟩ := updates .insertData (by simp)
      rw [if_neg select, if_neg ask, if_neg construct, if_pos (by exact Or.inl rfl)]
      exact (adds_runUpdate world host sparql).continues
  | deleteData =>
      obtain ⟨select, ask, construct⟩ := updates .deleteData (by simp)
      rw [if_neg select, if_neg ask, if_neg construct, if_pos (by exact Or.inr (Or.inl rfl))]
      exact (adds_runUpdate world host sparql).continues
  | modify =>
      obtain ⟨select, ask, construct⟩ := updates .modify (by simp)
      rw [if_neg select, if_neg ask, if_neg construct, if_pos (by exact Or.inr (Or.inr rfl))]
      exact (adds_runUpdate world host sparql).continues

theorem routeOfType_iri (line : Text) (request : Request) :
    routeOfType line request.iri true =
      match request with
      | .carrier command => .carrier line (Request.carrier command).iri
      | .spin form => .spin line (Request.spin form).iri := by
  cases request with
  | carrier command =>
      have disjoint : ¬ spNs <+: carrierNs ∧ ¬ carrierNs <+: spNs := by decide
      have apart : ¬ spNs <+: (Request.carrier command).iri := fun starts =>
        (List.prefix_or_prefix_of_prefix starts (List.prefix_append carrierNs _)).elim
          disjoint.1 disjoint.2
      have own : carrierNs <+: (Request.carrier command).iri := List.prefix_append carrierNs _
      rw [routeOfType, if_neg apart, if_pos own]
      rfl
  | spin form =>
      have own : spNs <+: (Request.spin form).iri := List.prefix_append spNs _
      rw [routeOfType, if_pos own]

/-- The router does what the request's execution says, and nothing but an error reply without. -/
def Request.Performed (request : Request) (line : CommandLine) (host : Host Store Carrier)
    (defaultAccount : Text) (world : World Store Carrier) : Prop :=
  match request.execution (extractProperty line.text) defaultAccount with
  | some execution =>
      Continues
        { world.record execution.effect with
          pendingAutoExport := execution.stash.or world.pendingAutoExport }
        (dispatch host true defaultAccount line.text world)
  | none => ∃ message, dispatch host true defaultAccount line.text world =
      world.antennaError message

theorem dispatch_request {line : CommandLine} {request : Request}
    (spelled : line.type ∈ request.spellings) (host : Host Store Carrier) (defaultAccount : Text)
    (world : World Store Carrier) : request.Performed line host defaultAccount world := by
  rw [Request.Performed, dispatch, route_command spelled, routeOfType_iri]
  cases request with
  | carrier command =>
      have name : (Request.carrier command).iri.drop carrierNs.length = command.localName :=
        List.drop_left
      simp only [World.handleCarrier, name, ofLocal_localName, Request.execution]
      cases command.call (extractProperty line.text) defaultAccount with
      | error missing => exact ⟨_, rfl⟩
      | ok call =>
          simp only [Except.toOption, Option.map_some]
          split
          · exact Continues.refl _
          · exact continues_antennaError _ _
  | spin form =>
      simp only [Request.execution]
      cases given : spText (extractProperty line.text) with
      | none =>
          refine ⟨"Missing sp:text in ".toList ++ form.localName, ?_⟩
          have name : (Request.spin form).iri.drop spNs.length = form.localName := List.drop_left
          unfold World.handleSpin
          dsimp only
          rw [name, given]
      | some sparql => exact handleSpin_form world host form given

end Dispatched

end LeanAntenna
