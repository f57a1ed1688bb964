import Antenna.DispatchCore
import Antenna.EscapeChecks

/-!
What the property scanner reads from a command's line. It searches the line for the first
occurrence of the name with a blank behind it, so the answer depends on where that place is.
-/

namespace LeanAntenna

open Text Turtle

/-- What every prefixed name and every IRI in angle brackets satisfies. -/
structure IsName (name : Text) : Prop where
  solid : ' ' ∉ name
  unquoted : '"' ∉ name
  marked : ':' ∈ name ∨ '<' ∈ name

instance (name : Text) : Decidable (IsName name) :=
  decidable_of_iff (' ' ∉ name ∧ '"' ∉ name ∧ (':' ∈ name ∨ '<' ∈ name))
    ⟨fun ⟨solid, unquoted, marked⟩ => ⟨solid, unquoted, marked⟩,
      fun ⟨solid, unquoted, marked⟩ => ⟨solid, unquoted, marked⟩⟩

/-- `[] a type ; name "value" ; ... .` with every value escaped. -/
structure CommandLine where
  type : Text
  properties : List (Text × Text)
  typeName : IsName type
  names : ∀ property ∈ properties, IsName property.1
  distinct : (properties.map Prod.fst).Nodup

def propertiesText : List (Text × Text) → Text
  | [] => ['.']
  | (name, value) :: rest =>
      ';' :: ' ' :: name ++ ' ' :: '"' :: turtleEscape value ++ '"' :: ' ' :: propertiesText rest

namespace CommandLine

def text (line : CommandLine) : Text :=
  '[' :: ']' :: ' ' :: 'a' :: ' ' :: line.type ++ ' ' :: propertiesText line.properties

/-- The value the statement gives the property. -/
def value (line : CommandLine) (query : Text) : Option Text := line.properties.lookup query

end CommandLine

section Values

/-- `text` begins with `value`, in quotes or as a bare word, and `value` is not empty. -/
inductive Shows : Text → Text → Prop where
  | quoted (value rest : Text) (enclosed : Enclosed value) (nonempty : value ≠ []) :
      Shows ('"' :: value ++ '"' :: rest) value
  | bare (piece rest : Text) (unquoted : (piece ++ rest).head? ≠ some '"')
      (ends : ∀ c ∈ rest.head?, c ∈ [' ', ';', '.'])
      (inside : ∀ c ∈ piece, c ∉ [' ', ';', '.']) (nonempty : trim piece ≠ []) :
      Shows (piece ++ rest) (trim piece)

theorem literalEnd_enclosed {value rest : Text} (enclosed : Enclosed value) (position : Nat) :
    literalEnd false position (value ++ '"' :: rest) = position + value.length := by
  fun_induction Enclosed value generalizing position with
  | case1 => simp [literalEnd]
  | case2 c value ih =>
      simp only [List.cons_append, literalEnd, if_true, Bool.false_eq_true, if_false]
      rw [ih enclosed, List.length_cons, List.length_cons]
      omega
  | case3 c value unlike ih =>
      obtain ⟨plain, unquoted, enclosed⟩ := enclosed
      rw [List.cons_append, literalEnd, if_neg (by simp), if_neg plain, if_neg unquoted,
        ih enclosed, List.length_cons]
      omega

theorem literalEnd_open (text : Text) (position : Nat) :
    (∃ value rest, text = value ++ '"' :: rest ∧ Enclosed value) ∨
      literalEnd false position text = 0 := by
  fun_induction Enclosed text generalizing position with
  | case1 => exact Or.inr rfl
  | case2 c text ih =>
      rcases ih (position + 1 + 1) with ⟨value, rest, rfl, enclosed⟩ | missing
      · exact Or.inl ⟨'\\' :: c :: value, rest, rfl, enclosed⟩
      · exact Or.inr (by simpa [literalEnd] using missing)
  | case3 c text unlike ih =>
      by_cases backslash : c = '\\'
      · subst backslash
        cases text with
        | nil => exact Or.inr rfl
        | cons d text => exact absurd rfl (unlike d text rfl)
      by_cases quote : c = '"'
      · subst quote
        exact Or.inl ⟨[], text, rfl, trivial⟩
      rcases ih (position + 1) with ⟨value, rest, rfl, enclosed⟩ | missing
      · refine Or.inl ⟨c :: value, rest, rfl, ?_⟩
        rw [Enclosed]
        · exact ⟨backslash, quote, enclosed⟩
        · rintro d more rfl
          exact absurd rfl backslash
      · refine Or.inr ?_
        rw [literalEnd, if_neg (by simp), if_neg backslash, if_neg quote, missing]

theorem valueAt_quoted {value : Text} (enclosed : Enclosed value) (rest : Text) :
    valueAt ('"' :: value ++ '"' :: rest) = if value = [] then none else some value := by
  unfold valueAt
  simp only [List.cons_append, List.head?_cons, if_true, List.drop_succ_cons, List.drop_zero,
    literalEnd_enclosed enclosed, Nat.zero_add, List.take_left]
  cases value <;> simp

theorem valueAt_eq_some_iff {text value : Text} : valueAt text = some value ↔ Shows text value := by
  constructor
  · intro found
    by_cases quoted : text.head? = some '"'
    · obtain ⟨inner, rfl⟩ : ∃ inner, text = '"' :: inner := by
        cases text with
        | nil => contradiction
        | cons c inner => exact ⟨inner, by simpa using quoted⟩
      rcases literalEnd_open inner 0 with ⟨content, rest, rfl, enclosed⟩ | missing
      · have read := valueAt_quoted enclosed rest
        rw [List.cons_append, found] at read
        split at read
        · contradiction
        · cases read
          exact Shows.quoted value rest enclosed ‹_›
      · simp [valueAt, missing] at found
    · obtain ⟨rest, split, ends⟩ := firstPiece_split [' ', ';', '.'] text
      simp only [valueAt, if_neg quoted] at found
      split at found
      · contradiction
      · rename_i nonempty
        cases found
        have shown := Shows.bare (firstPiece [' ', ';', '.'] text) rest (by rwa [← split]) ends
          firstPiece_clear nonempty
        rwa [← split] at shown
  · intro shown
    cases shown with
    | quoted value rest enclosed nonempty => rw [valueAt_quoted enclosed, if_neg nonempty]
    | bare piece rest unquoted ends inside nonempty =>
        rw [valueAt, if_neg unquoted, firstPiece_of_split ends inside]
        exact if_neg nonempty

theorem Shows.nonempty {text value : Text} (shown : Shows text value) : value ≠ [] := by
  cases shown <;> assumption

theorem extractProperty_nonempty {line query value : Text}
    (found : extractProperty line query = some value) : value ≠ [] := by
  obtain ⟨parts, -, read⟩ := Option.bind_eq_some_iff.mp found
  exact (valueAt_eq_some_iff.mp read).nonempty

end Values

/-- Where the first `query` with a blank behind it stands in a command's line. -/
inductive Place where
  | nowhere
  | atType (after : Text)
  | atName (name value after : Text)
  | inLiteral (after : Text)

def propertyPlace (query : Text) : List (Text × Text) → Place
  | [] => .nowhere
  | (name, value) :: rest =>
      if query <:+ name then
        .atName name value ('"' :: turtleEscape value ++ '"' :: ' ' :: propertiesText rest)
      else
        match behind (turtleEscape value) (query ++ [' ']) with
        | some after => .inLiteral (after ++ '"' :: ' ' :: propertiesText rest)
        | none => propertyPlace query rest

namespace Place

def after : Place → Option Text
  | .nowhere => none
  | .atType after | .atName _ _ after | .inLiteral after => some after

/-- What the scanner sees there: behind the class only punctuation follows. -/
def Shown : Place → Text → Prop
  | .nowhere, _ | .atType _, _ => False
  | .atName _ value _, shown => value ≠ [] ∧ shown = turtleEscape value
  | .inLiteral after, shown => Shows (trim after) shown

end Place

namespace CommandLine

def place (line : CommandLine) (query : Text) : Place :=
  if query <:+ line.type then .atType (propertiesText line.properties)
  else propertyPlace query line.properties

/-- Exactly when the scanner answers with the statement's own property: the first `query ` of the
line is nowhere, or at the class while there is no such property, or at a name that ends in `query`
and whose value is the wanted one (not empty, or empty when there is no such property), or inside a
literal that goes on as the wanted value (or as nothing). -/
def ReadsOwn (line : CommandLine) (query : Text) : Prop :=
  match line.place query, line.value query with
  | .nowhere, _ => True
  | .atType _, own => own = none
  | .atName _ value _, some own => own = value ∧ own ≠ []
  | .atName _ value _, none => value = []
  | .inLiteral after, some own => Shows (trim after) (turtleEscape own)
  | .inLiteral after, none => ∀ shown, ¬ Shows (trim after) shown

end CommandLine

section Search

theorem not_suffix_of_marked {query word : Text} (name : IsName query)
    (unmarked : ':' ∉ word ∧ '<' ∉ word) : ¬ query <:+ word := by
  intro ends
  exact name.marked.elim (fun inside => unmarked.1 (ends.subset inside))
    (fun inside => unmarked.2 (ends.subset inside))

theorem behind_propertiesText {query : Text} (name : IsName query)
    {properties : List (Text × Text)} (names : ∀ property ∈ properties, IsName property.1) :
    behind (propertiesText properties) (query ++ [' ']) = (propertyPlace query properties).after := by
  have nonempty : query ++ [' '] ≠ [] := by simp
  have unquoted : '"' ∉ query ++ [' '] := by simpa using name.unquoted
  induction properties with
  | nil =>
      have missing : find ['.'] (query ++ [' ']) = none := by
        rw [find_eq_none_iff]
        intro inside
        have size := inside.length_le
        have marked := name.marked
        cases query <;> simp at size marked
      rw [propertiesText, behind, missing]
      rfl
  | cons property rest ih =>
      obtain ⟨property, value⟩ := property
      have here := names (property, value) (by simp)
      have later := ih fun other member => names other (List.mem_cons_of_mem _ member)
      have atSemicolon : ¬ query <:+ [';'] := not_suffix_of_marked name (by decide)
      have atBlank : ¬ query <:+ [] := not_suffix_of_marked name (by decide)
      have text : propertiesText ((property, value) :: rest) =
          [';'] ++ ' ' :: (property ++ ' ' :: ([] ++ '"' ::
            (turtleEscape value ++ '"' :: ([] ++ ' ' :: propertiesText rest)))) := by
        simp [propertiesText]
      rw [text, behind_word (by decide) name.solid, if_neg atSemicolon,
        behind_word here.solid name.solid, propertyPlace]
      split
      · simp [Place.after]
      · rw [behind_barrier unquoted nonempty, behind, find_nil nonempty, Option.map_none,
          behind_barrier unquoted nonempty]
        cases behind (turtleEscape value) (query ++ [' ']) with
        | some after => simp [Place.after]
        | none =>
            simp only
            rw [behind_word (by simp) name.solid, if_neg atBlank, later]

theorem behind_text {line : CommandLine} {query : Text} (name : IsName query) :
    behind line.text (query ++ [' ']) = (line.place query).after := by
  have text : line.text = ['[', ']'] ++ ' ' :: (['a'] ++ ' ' ::
      (line.type ++ ' ' :: propertiesText line.properties)) := by
    simp [CommandLine.text]
  rw [text, behind_word (by decide) name.solid,
    if_neg (not_suffix_of_marked name (by decide)), behind_word (by decide) name.solid,
    if_neg (not_suffix_of_marked name (by decide)), behind_word line.typeName.solid name.solid,
    behind_propertiesText name line.names, CommandLine.place]
  split <;> rfl

theorem propertiesText_ends (properties : List (Text × Text)) :
    ∃ front, propertiesText properties = front ++ ['.'] := by
  induction properties with
  | nil => exact ⟨[], rfl⟩
  | cons property rest ih =>
      obtain ⟨front, split⟩ := ih
      exact ⟨';' :: ' ' :: property.1 ++ ' ' :: '"' :: turtleEscape property.2 ++ '"' :: ' ' :: front,
        by simp [propertiesText, split]⟩

theorem trim_of_ends {text : Text} (starts : ∀ c ∈ text.head?, isWhitespace c = false)
    (ends : ∃ front, text = front ++ ['.']) : trim text = text := by
  obtain ⟨front, rfl⟩ := ends
  refine trim_eq_self starts ?_
  simp only [List.getLast?_append, List.getLast?_singleton, Option.some_or, Option.mem_some_iff]
  rintro c rfl
  rfl

/-- Behind the class only punctuation follows. -/
theorem valueAt_propertiesText (properties : List (Text × Text)) :
    valueAt (trim (propertiesText properties)) = none := by
  cases properties with
  | nil => rfl
  | cons property rest =>
      rw [trim_of_ends (by simp [propertiesText]; rfl) (propertiesText_ends _), propertiesText]
      rfl

theorem propertyPlace_ne_atType (query : Text) (properties : List (Text × Text)) (after : Text) :
    propertyPlace query properties ≠ .atType after := by
  induction properties with
  | nil => simp [propertyPlace]
  | cons property rest ih =>
      rw [propertyPlace]
      repeat' split
      · simp
      · simp
      · exact ih

/-- The first place where `query` stands in the properties, if it is not inside a literal. -/
theorem valueAt_place {query : Text} {properties : List (Text × Text)} {name value after : Text}
    (place : propertyPlace query properties = .atName name value after) :
    valueAt (trim after) = if value = [] then none else some (turtleEscape value) := by
  induction properties with
  | nil => contradiction
  | cons property rest ih =>
      obtain ⟨other, content⟩ := property
      rw [propertyPlace] at place
      split at place
      · cases place
        obtain ⟨front, split⟩ := propertiesText_ends rest
        rw [trim_of_ends (by simp; rfl) ⟨'"' :: turtleEscape value ++ '"' :: ' ' :: front, by simp [split]⟩,
          turtleEscape_eq_eventEscape, valueAt_quoted (enclosed_eventEscape value)]
        simp only [eventEscape_eq_nil]
      · split at place
        · contradiction
        · exact ih place

theorem lookup_of_place_nowhere {query : Text} {properties : List (Text × Text)}
    (place : propertyPlace query properties = .nowhere) : properties.lookup query = none := by
  induction properties with
  | nil => rfl
  | cons property rest ih =>
      obtain ⟨name, value⟩ := property
      rw [propertyPlace] at place
      split at place
      · contradiction
      · rename_i other
        split at place
        · contradiction
        · rw [List.lookup_cons]
          have differs : query ≠ name := by
            rintro rfl
            exact other List.suffix_rfl
          simp [beq_eq_false_iff_ne.mpr differs, ih place]

theorem value_of_nowhere {line : CommandLine} {query : Text} (place : line.place query = .nowhere) :
    line.value query = none := by
  unfold CommandLine.place at place
  split at place
  · contradiction
  · exact lookup_of_place_nowhere place

/-- The scanner answers with what is shown at the first place of the name. -/
theorem extractProperty_eq_some_iff {line : CommandLine} {query value : Text} (name : IsName query) :
    extractProperty line.text query = some value ↔ (line.place query).Shown value := by
  have found : extractProperty line.text query =
      (line.place query).after.bind fun after => valueAt (trim after) := by
    rw [← behind_text name, behind, extractProperty]
    cases find line.text (query ++ [' ']) <;> rfl
  rw [found]
  cases place : line.place query with
  | nowhere => simp [Place.after, Place.Shown]
  | atType after =>
      have blank : valueAt (trim after) = none := by
        unfold CommandLine.place at place
        split at place
        · cases place
          exact valueAt_propertiesText line.properties
        · exact absurd place (propertyPlace_ne_atType query line.properties after)
      simp [Place.after, Place.Shown, blank]
  | atName name content after =>
      have read : valueAt (trim after) =
          if content = [] then none else some (turtleEscape content) := by
        unfold CommandLine.place at place
        split at place
        · contradiction
        · exact valueAt_place place
      rw [Place.after, Option.bind_some, read, Place.Shown]
      by_cases empty : content = []
      · simp [empty]
      · simp [empty, eq_comm]
  | inLiteral after => rw [Place.after, Option.bind_some, Place.Shown, valueAt_eq_some_iff]

end Search

/-- The scanner answers with the statement's own property exactly when the first occurrence of the
name is such a place; and a line without an account is read as the default account exactly then. -/
theorem extractProperty_own_iff (line : CommandLine) :
    (∀ query, IsName query →
      (extractProperty line.text query = (line.value query).map turtleEscape ↔
        line.ReadsOwn query)) ∧
    (line.value "carrier:account".toList = none →
      ((∀ account, accountOrDefault (extractProperty line.text) account = account) ↔
        line.ReadsOwn "carrier:account".toList)) := by
  have own : ∀ query, IsName query →
      (extractProperty line.text query = (line.value query).map turtleEscape ↔
        line.ReadsOwn query) := by
    intro query name
    rw [CommandLine.ReadsOwn]
    cases given : line.value query with
    | none =>
        rw [Option.map_none, Option.eq_none_iff_forall_ne_some]
        simp only [ne_eq, extractProperty_eq_some_iff name]
        cases line.place query with
        | nowhere => simp [Place.Shown]
        | atType after => simp [Place.Shown]
        | atName name value after => simp [Place.Shown]
        | inLiteral after => rfl
    | some own =>
        rw [Option.map_some, extractProperty_eq_some_iff name]
        cases place : line.place query with
        | nowhere => exact absurd (value_of_nowhere place) (by simp [given])
        | atType after => simp [Place.Shown]
        | atName name value after =>
            simp only [Place.Shown, turtleEscape_eq_eventEscape, eventEscape_injective.eq_iff]
            constructor
            · rintro ⟨nonempty, rfl⟩
              exact ⟨rfl, nonempty⟩
            · rintro ⟨rfl, nonempty⟩
              exact ⟨nonempty, rfl⟩
        | inLiteral after => rfl
  refine ⟨own, fun missing => ?_⟩
  have account := own "carrier:account".toList (by decide)
  rw [missing, Option.map_none] at account
  rw [← account]
  constructor
  · intro always
    cases read : extractProperty line.text "carrier:account".toList with
    | none => rfl
    | some value =>
        have nonempty := extractProperty_nonempty read
        have default := always []
        rw [accountOrDefault, nonEmpty, read] at default
        simp [Option.filter_some, nonempty] at default
  · intro unread account
    rw [accountOrDefault, nonEmpty, unread]
    rfl

theorem sendMsg_named : IsName "carrier:SendMsg".toList := by decide

/-- A message whose text names another account, and a nickname that is cleared. -/
def forgedAccount : CommandLine where
  type := "carrier:SendMsg".toList
  properties :=
    [("carrier:text".toList, "use carrier:account mallory now".toList),
      ("carrier:contactUri".toList, [])]
  typeName := sendMsg_named
  names := by decide
  distinct := by decide

theorem extractProperty_forged :
    forgedAccount.value "carrier:account".toList = none ∧
      extractProperty forgedAccount.text "carrier:account".toList = some "mallory".toList ∧
      accountOrDefault (extractProperty forgedAccount.text) "alice".toList = "mallory".toList ∧
      forgedAccount.value "carrier:contactUri".toList = some [] ∧
      extractProperty forgedAccount.text "carrier:contactUri".toList = none := by
  decide

end LeanAntenna
