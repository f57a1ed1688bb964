import Antenna.Library.Rdf
import Antenna.Library.Turtle

/-!
Turtle documents: directives as they are written, the names of a document before they are resolved,
and the graph that the document denotes in an environment of prefixes and a base.
-/

namespace Turtle

inductive Directive where
  | declare (label iri : Text)
  | base (iri : Text)
deriving DecidableEq, Repr

/-- A directive with the white space between its tokens and behind its dot. -/
structure WrittenDirective where
  directive : Directive
  before : Text
  middle : Text
  after : Text
  gap : Text

namespace WrittenDirective

def opening (written : WrittenDirective) : Text :=
  match written.directive with
  | .declare label _ => "@prefix".toList ++ written.before ++ label ++ ':' :: written.middle
  | .base _ => "@base".toList ++ written.before

def iri (written : WrittenDirective) : Text :=
  match written.directive with
  | .declare _ iri => iri
  | .base iri => iri

def label (written : WrittenDirective) : Text :=
  match written.directive with
  | .declare label _ => label
  | .base _ => []

def text (written : WrittenDirective) : Text :=
  written.opening ++ '<' :: written.iri ++ '>' :: written.after ++ '.' :: written.gap

/-- The grammar allows the directive. -/
structure Legal (written : WrittenDirective) : Prop where
  iri : (unescapeIri written.iri).isSome = true
  label : ∀ c ∈ written.label, isNameChar c = true ∨ c = '.'
  ending : written.label.getLast? ≠ some '.'
  spaces : ∀ c ∈ written.before ++ written.middle ++ written.after ++ written.gap, isSpace c = true
  apart : written.before ≠ [] ∨ written.label = []

end WrittenDirective

/-- A node of a statement before its names are resolved; anonymous nodes are numbered through the
document. -/
inductive Node where
  | name (name : Name)
  | blank (label : Text)
  | anonymous (index : Nat)
  | literal (value : Text) (suffix : Suffix)
deriving DecidableEq, Repr

structure NamedTriple where
  subject : Node
  predicate : Name
  object : Node
deriving DecidableEq, Repr

inductive Item where
  | directive (directive : Directive)
  | triple (triple : NamedTriple)
deriving DecidableEq, Repr

/-- The reading of texts without regard to any environment, and the resolution of IRI references
against a base. -/
structure Grammar where
  items : Text → Option (List Item)
  resolve : Option Text → Text → Option Text

structure Environment where
  prefixes : Prefixes
  base : Option Text

def Environment.empty : Environment := ⟨fun _ => none, none⟩

namespace Grammar

variable (grammar : Grammar)

/-- The IRI that an IRI reference denotes. -/
def reference (environment : Environment) (raw : Text) : Option Text :=
  (unescapeIri raw).bind (grammar.resolve environment.base)

def iri (environment : Environment) : Name → Option Text
  | .iriRef raw => grammar.reference environment raw
  | .prefixed label localName => (Name.prefixed label localName).iri environment.prefixes

/-- Labelled and anonymous nodes have different labels in the graph. -/
def term (environment : Environment) : Node → Option Rdf.Term
  | .name name => (grammar.iri environment name).map fun iri => .resource (.iri iri)
  | .blank label => some (.resource (.blank ('_' :: label)))
  | .anonymous index => some (.resource (.blank (List.replicate index '*')))
  | .literal value .plain => some (.literal value (xsd "string") none)
  | .literal value (.language tag) =>
      some (.literal value "http://www.w3.org/1999/02/22-rdf-syntax-ns#langString".toList (some tag))
  | .literal value (.typed datatype) =>
      (grammar.iri environment datatype).map fun iri => .literal value iri none

def triple (environment : Environment) (named : NamedTriple) : Option Rdf.Triple := do
  let subject ← (← grammar.term environment named.subject).asResource
  let predicate ← grammar.iri environment named.predicate
  let object ← grammar.term environment named.object
  some ⟨subject, predicate, object⟩

def declare (environment : Environment) : Directive → Option Environment
  | .declare label raw =>
      (grammar.reference environment raw).map fun iri =>
        { environment with
          prefixes := fun other => if other = label then some iri else environment.prefixes other }
  | .base raw => (grammar.reference environment raw).map fun iri => { environment with base := some iri }

/-- The graph of the items, if all their names are known where they stand. -/
def graph (environment : Environment) : List Item → Option Rdf.Graph
  | [] => some []
  | .directive directive :: rest =>
      (grammar.declare environment directive).bind fun next => graph next rest
  | .triple named :: rest =>
      (grammar.triple environment named).bind fun triple =>
        (graph environment rest).map (triple :: ·)

/-- The graph that a text denotes in an environment. -/
def denotes (environment : Environment) (text : Text) : Option Rdf.Graph :=
  (grammar.items text).bind (grammar.graph environment)

/-- The environment behind the directives. -/
def environmentAfter (environment : Environment) (directives : List Directive) : Option Environment :=
  directives.foldlM grammar.declare environment

/-- A legal directive is read first, and the text behind it on its own. -/
def ReadsDirectives : Prop :=
  ∀ (written : WrittenDirective) (rest : Text), written.Legal →
    grammar.items (written.text ++ rest) =
      (grammar.items rest).map (Item.directive written.directive :: ·)

variable {grammar}

theorem items_directives (reads : grammar.ReadsDirectives) (directives : List WrittenDirective)
    (legal : ∀ written ∈ directives, written.Legal) (rest : Text) :
    grammar.items (directives.flatMap WrittenDirective.text ++ rest) =
      (grammar.items rest).map (directives.map (fun written => .directive written.directive) ++ ·) := by
  induction directives with
  | nil =>
      rw [List.flatMap_nil, List.nil_append]
      exact Option.map_id'.symm
  | cons written directives ih =>
      rw [List.flatMap_cons, List.append_assoc, reads written _ (legal written List.mem_cons_self),
        ih fun other member => legal other (List.mem_cons_of_mem _ member), Option.map_map]
      rfl

variable (grammar) in
theorem graph_directives (environment : Environment) (directives : List Directive) (rest : List Item) :
    grammar.graph environment (directives.map .directive ++ rest) =
      (grammar.environmentAfter environment directives).bind fun next => grammar.graph next rest := by
  induction directives generalizing environment with
  | nil => rfl
  | cons directive directives ih =>
      rw [List.map_cons, List.cons_append, graph, environmentAfter, List.foldlM_cons]
      cases grammar.declare environment directive with
      | none => rfl
      | some next => exact ih next

/-- The directives at the front of a text only change the environment of the rest. -/
theorem denotes_directives (reads : grammar.ReadsDirectives) (environment : Environment)
    (directives : List WrittenDirective) (legal : ∀ written ∈ directives, written.Legal) (rest : Text) :
    grammar.denotes environment (directives.flatMap WrittenDirective.text ++ rest) =
      (grammar.environmentAfter environment (directives.map WrittenDirective.directive)).bind
        fun next => grammar.denotes next rest := by
  unfold denotes
  rw [items_directives reads directives legal]
  cases grammar.items rest with
  | none => cases grammar.environmentAfter environment _ <;> rfl
  | some items =>
      have behind := graph_directives grammar environment (directives.map WrittenDirective.directive) items
      rw [List.map_map] at behind
      exact behind

end Grammar

theorem hexValue_closed {c : Char} (hex : (hexValue c).isSome = true) : c ∉ ['<', '>'] := by
  have refused : hexValue '<' = none ∧ hexValue '>' = none := by decide
  intro member
  rcases List.mem_pair.mp member with rfl | rfl
  · simp [refused.1] at hex
  · simp [refused.2] at hex

theorem charOfHex_closed {digits : Text} {char : Char} (read : charOfHex digits = some char) :
    ∀ c ∈ digits, c ∉ ['<', '>'] := by
  obtain ⟨values, mapped, -⟩ := Option.bind_eq_some_iff.mp read
  exact fun c member => hexValue_closed (hexValues_known mapped c member)

theorem iriChar_closed {c char : Char} (read : iriChar c = some char) : c ∉ ['<', '>'] := by
  have refused : iriChar '<' = none ∧ iriChar '>' = none := by decide
  intro member
  rcases List.mem_pair.mp member with rfl | rfl
  · rw [refused.1] at read
    cases read
  · rw [refused.2] at read
    cases read

/-- The characters of an IRI reference are neither of the brackets around it. -/
theorem unescapeIri_closed {raw value : Text} (legal : unescapeIri raw = some value) :
    ∀ c ∈ raw, c ∉ ['<', '>'] := by
  have escape : '\\' ∉ ['<', '>'] ∧ 'u' ∉ ['<', '>'] ∧ 'U' ∉ ['<', '>'] := by decide
  fun_induction unescapeIri raw generalizing value with
  | case1 => simp
  | case2 a b c d rest ih =>
      simp only [Option.bind_eq_some_iff, Option.map_eq_some_iff] at legal
      obtain ⟨_, ⟨_, digits, _⟩, more, later, rfl⟩ := legal
      intro char member
      rcases List.mem_append.mp (show char ∈ ['\\', 'u'] ++ [a, b, c, d] ++ rest from member) with
        front | back
      · rcases List.mem_append.mp front with mark | digit
        · rcases List.mem_pair.mp mark with rfl | rfl
          · exact escape.1
          · exact escape.2.1
        · exact charOfHex_closed digits char digit
      · exact ih later char back
  | case3 a b c d e f g h rest ih =>
      simp only [Option.bind_eq_some_iff, Option.map_eq_some_iff] at legal
      obtain ⟨_, ⟨_, digits, _⟩, more, later, rfl⟩ := legal
      intro char member
      rcases List.mem_append.mp
        (show char ∈ ['\\', 'U'] ++ [a, b, c, d, e, f, g, h] ++ rest from member) with front | back
      · rcases List.mem_append.mp front with mark | digit
        · rcases List.mem_pair.mp mark with rfl | rfl
          · exact escape.1
          · exact escape.2.2
        · exact charOfHex_closed digits char digit
      · exact ih later char back
  | case4 c rest _ _ ih =>
      simp only [Option.bind_eq_some_iff, Option.map_eq_some_iff] at legal
      obtain ⟨_, allowed, more, later, rfl⟩ := legal
      intro char member
      rcases List.mem_cons.mp member with rfl | behind
      · exact iriChar_closed allowed
      · exact ih later char behind

end Turtle
