import Antenna.EventChecks
import Antenna.RequestRouting

/-!
What a request's text argument arrives as. The scanner cuts the escaped text out of the line and
nothing unescapes it, so an argument is handed over as it is written.
-/

namespace LeanAntenna

open Text Turtle

section Places

/-- How a request gives an argument: by `name`, while the names that would come before it are not
in the statement. -/
structure Gives (line : CommandLine) (request : Request) (defaultAccount : Text)
    (argument : Argument) (preferred : List PropertyName) (name : PropertyName) (value : Text) :
    Prop where
  spelled : line.type ∈ request.spellings
  belongs : argument ∈ request.arguments defaultAccount
    (decide (line.value PropertyName.preset.written = some presetValue))
  names : ∃ later, argument.names = preferred ++ name :: later
  unused : ∀ other ∈ preferred, line.value other.written = none
  written : line.value name.written = some value
  nonempty : value ≠ []
  others : ∀ property ∈ line.properties, property.1 ≠ name.written → ∀ read ∈ request.reads,
    ¬ read.written <:+: turtleEscape property.2
  apart : ∀ property ∈ line.properties, ∀ read ∈ request.reads,
    read.written <:+ property.1 → read.written = property.1

variable {properties : List (Text × Text)} {own read value : Text}

theorem propertyPlace_own
    (others : ∀ property ∈ properties, property.1 ≠ own → ¬ own <:+: turtleEscape property.2)
    (apart : ∀ property ∈ properties, own <:+ property.1 → own = property.1)
    (written : properties.lookup own = some value) :
    ∃ after, propertyPlace own properties = .atName own value after := by
  induction properties with
  | nil => contradiction
  | cons property rest ih =>
      obtain ⟨name, content⟩ := property
      rw [propertyPlace]
      by_cases same : own = name
      · subst same
        rw [if_pos List.suffix_rfl]
        rw [List.lookup_cons, beq_self_eq_true] at written
        cases written
        exact ⟨_, rfl⟩
      · have elsewhere : ¬ own <:+ name := fun ends => same (apart (name, content) (by simp) ends)
        have clear : behind (turtleEscape content) (own ++ [' ']) = none := by
          rw [behind, Option.map_eq_none_iff, find_eq_none_iff]
          exact fun inside => others (name, content) (by simp) (Ne.symm same)
            ((List.prefix_append own [' ']).isInfix.trans inside)
        rw [List.lookup_cons, beq_eq_false_iff_ne.mpr same] at written
        rw [if_neg elsewhere, clear]
        exact ih (fun _ member => others _ (List.mem_cons_of_mem _ member))
          (fun _ member => apart _ (List.mem_cons_of_mem _ member)) written

/-- A name that the statement does not use can stand only inside the argument. -/
theorem propertyPlace_unused
    (others : ∀ property ∈ properties, property.1 ≠ own → ¬ read <:+: turtleEscape property.2)
    (apart : ∀ property ∈ properties, read <:+ property.1 → read = property.1)
    (unused : properties.lookup read = none) :
    propertyPlace read properties = .nowhere ∨
      ∃ content after rest, (own, content) ∈ properties ∧ rest <:+ properties ∧
        behind (turtleEscape content) (read ++ [' ']) = some after ∧
        propertyPlace read properties =
          .inLiteral (after ++ '"' :: ' ' :: propertiesText rest) := by
  induction properties with
  | nil => exact Or.inl rfl
  | cons property rest ih =>
      obtain ⟨name, content⟩ := property
      have differs : read ≠ name := by
        rintro rfl
        simp at unused
      rw [List.lookup_cons, beq_eq_false_iff_ne.mpr differs] at unused
      rw [propertyPlace, if_neg fun ends => differs (apart (name, content) (by simp) ends)]
      cases found : behind (turtleEscape content) (read ++ [' ']) with
      | some after =>
          have argument : name = own := by
            by_contra other
            have inside : read ++ [' '] <:+: turtleEscape content := by
              rw [← contains_iff, contains, Option.isSome_iff_exists]
              exact (Option.map_eq_some_iff.mp found).imp fun _ same => same.1
            exact others (name, content) (by simp) other ((List.prefix_append read [' ']).isInfix.trans inside)
          subst argument
          exact Or.inr ⟨content, after, rest, by simp, List.suffix_cons _ _, found, rfl⟩
      | none =>
          rcases ih (fun _ member => others _ (List.mem_cons_of_mem _ member))
              (fun _ member => apart _ (List.mem_cons_of_mem _ member)) unused with
            nowhere | ⟨content, after, more, member, ends, found, place⟩
          · exact Or.inl nowhere
          · exact Or.inr ⟨content, after, more, List.mem_cons_of_mem _ member,
              ends.trans (List.suffix_cons _ _), found, place⟩

theorem blank_eventEscape {text : Text} (blank : ' ' ∈ eventEscape text) : ' ' ∈ text := by
  have alone : [' '] <:+: eventEscape text := by
    obtain ⟨front, back, split⟩ := List.append_of_mem blank
    exact ⟨front, back, by simp [split]⟩
  exact (infix_eventEscape (by simp) (by simp) alone).subset (by simp)

theorem trim_literalEnd (after : Text) (rest : List (Text × Text)) :
    trim (after ++ '"' :: ' ' :: propertiesText rest) =
      trimStart after ++ '"' :: ' ' :: propertiesText rest := by
  have split : after = after.takeWhile isWhitespace ++ trimStart after :=
    List.takeWhile_append_dropWhile.symm
  have blank : ∀ c ∈ after.takeWhile isWhitespace, isWhitespace c = true :=
    fun c member => List.mem_takeWhile_imp member
  have starts : ∀ c ∈ (trimStart after ++ '"' :: ' ' :: propertiesText rest).head?,
      isWhitespace c = false := by
    have visible := List.head?_dropWhile_not isWhitespace after
    rw [← trimStart] at visible
    cases kept : trimStart after with
    | nil => simp; rfl
    | cons c more =>
        rw [kept] at visible
        simpa using visible
  obtain ⟨front, ends⟩ := propertiesText_ends rest
  conv_lhs => rw [split, List.append_assoc, trim, trimStart_append blank]
  exact trim_of_ends starts ⟨trimStart after ++ '"' :: ' ' :: front, by simp [ends]⟩

theorem enclosed_word : ∀ {word : Text}, '"' ∉ word → Enclosed (word ++ [' '])
  | [], _ => by simp [Enclosed]
  | c :: word, unquoted => by
      have unquotedRest : '"' ∉ word := fun inside => unquoted (List.mem_cons_of_mem c inside)
      have later := enclosed_word unquotedRest
      by_cases backslash : c = '\\'
      · subst backslash
        cases word with
        | nil => trivial
        | cons d word =>
            have shorter : '"' ∉ word := fun inside => unquoted (by simp [inside])
            change Enclosed (word ++ [' '])
            exact enclosed_word shorter
      · rw [List.cons_append, Enclosed]
        · exact ⟨backslash, fun quote => unquoted (by simp [quote]), later⟩
        · rintro d more rfl
          exact absurd rfl backslash

theorem next_ne {name : PropertyName} {before after : Text} {rest : List (Text × Text)}
    (names : ∀ property ∈ rest, IsName property.1)
    (apart : ∀ property ∈ rest, ¬ name.written <:+ property.1)
    (split : eventEscape value = before ++ (name.written ++ [' ']) ++ after) :
    valueAt ([] ++ '"' :: ' ' :: propertiesText rest) ≠ some value := by
  intro read
  cases rest with
  | nil => contradiction
  | cons property rest =>
      obtain ⟨next, content⟩ := property
      have isNext : IsName next := names (next, content) (by simp)
      have gap : Enclosed (' ' :: ';' :: ' ' :: next ++ [' ']) :=
        enclosed_word (by simpa using isNext.unquoted)
      have shown := valueAt_quoted gap (turtleEscape content ++ '"' :: ' ' :: propertiesText rest)
      have line : [] ++ '"' :: ' ' :: propertiesText ((next, content) :: rest) =
          '"' :: (' ' :: ';' :: ' ' :: next ++ [' ']) ++
            '"' :: (turtleEscape content ++ '"' :: ' ' :: propertiesText rest) := by
        simp [propertiesText]
      rw [line, shown, if_neg (by simp)] at read
      have same := Option.some.inj read
      have inside : name.written ++ [' '] <:+: eventEscape value := ⟨before, after, split.symm⟩
      have standing := infix_eventEscape (written_plain name).1 (written_plain name).2 inside
      have solid := (written_isName name).solid
      have text : ' ' :: ';' :: ' ' :: next ++ [' '] =
          [] ++ ' ' :: ([';'] ++ ' ' :: (next ++ ' ' :: [])) := by simp
      have missing : behind ([] ++ ' ' :: ([';'] ++ ' ' :: (next ++ ' ' :: [])))
          (name.written ++ [' ']) = none := by
        rw [behind_word (by simp) solid,
          if_neg (not_suffix_of_marked (written_isName name) (by decide)),
          behind_word (by decide) solid,
          if_neg (not_suffix_of_marked (written_isName name) (by decide)),
          behind_word isNext.solid solid, if_neg (apart (next, content) (by simp)), behind,
          find_nil (by simp)]
        rfl
      rw [behind, Option.map_eq_none_iff, find_eq_none_iff, ← text, same] at missing
      exact missing standing

/-- What is read out of an argument's own text is never the argument: a bare word has no blank, and
a closing quote is followed by the next property's name. -/
theorem shown_ne {name : PropertyName} {shown after : Text} {rest : List (Text × Text)}
    (names : ∀ property ∈ rest, IsName property.1)
    (apart : ∀ property ∈ rest, ¬ name.written <:+ property.1)
    (found : behind (turtleEscape value) (name.written ++ [' ']) = some after)
    (shows : Shows (trim (after ++ '"' :: ' ' :: propertiesText rest)) shown) : shown ≠ value := by
  rintro rfl
  rw [turtleEscape_eq_eventEscape] at found
  obtain ⟨⟨before, suffix⟩, cut, same⟩ := Option.map_eq_some_iff.mp found
  obtain rfl : suffix = after := same
  have split := find_split cut
  rw [trim_literalEnd] at shows
  have read := valueAt_eq_some_iff.mpr shows
  generalize text : trimStart _ ++ '"' :: ' ' :: propertiesText rest = line at shows
  cases shows with
  | bare piece more unquoted ends inside nonempty =>
      have blank : ' ' ∈ trim piece := blank_eventEscape (by simp [split])
      have kept : ' ' ∈ piece :=
        (trimStart_suffix piece).subset ((trimEnd_initial (trimStart piece)).subset blank)
      exact inside ' ' kept (by simp)
  | quoted shown more enclosed nonempty =>
      have whole : Enclosed ((before ++ name.written) ++ ' ' :: suffix) := by
        have enclosed := enclosed_eventEscape shown
        rw [split] at enclosed
        simpa using enclosed
      have visible : Enclosed (trimStart suffix) := by
        have kept := enclosed_behind _ (by decide) whole
        rw [← List.takeWhile_append_dropWhile (p := isWhitespace) (l := suffix)] at kept
        refine enclosed_append (fun inside => ?_) kept
        exact absurd (List.mem_takeWhile_imp inside) (by decide)
      cases start : trimStart suffix with
      | cons c tail =>
          rw [start] at text visible
          have quote : c = '"' := (List.cons.inj text).1
          subst quote
          simp [Enclosed] at visible
      | nil =>
          rw [start] at read
          exact next_ne names apart split read

end Places

section Handed

theorem mapM_eq_filterMap {α β : Type} (f : α → Option β) (values : List α) :
    values.mapM f = if ∀ value ∈ values, f value ≠ none then some (values.filterMap f) else none := by
  induction values with
  | nil => simp
  | cons value values ih =>
      rw [List.mapM_cons, ih]
      cases read : f value with
      | none => simp [read]
      | some first =>
          by_cases all : ∀ value ∈ values, f value ≠ none
          · have whole : ∀ other ∈ value :: values, f other ≠ none := by
              simpa [read] using all
            rw [if_pos all, if_pos whole, List.filterMap_cons_some read]
            rfl
          · have broken : ¬ ∀ other ∈ value :: values, f other ≠ none := fun whole =>
              all fun other member => whole other (List.mem_cons_of_mem value member)
            rw [if_neg all, if_neg broken]
            rfl

/-- The string a request hands over for one of its arguments. -/
def Request.Hands (request : Request) (property : Properties) (defaultAccount : Text)
    (argument : Argument) (value : Text) : Prop :=
  ∃ execution, request.execution property defaultAccount = some execution ∧
    (argument.names, some value) ∈ execution.arguments

theorem arguments_missing (request : Request) (defaultAccount : Text) (preset : Bool) :
    (request.arguments defaultAccount preset).filter (fun a => a.fallback = .missing) =
      (request.arguments [] false).filter fun a => a.fallback = .missing := by
  cases request with
  | carrier command => cases command <;> cases preset <;> rfl
  | spin form => rfl

theorem arguments_names (request : Request) (defaultAccount : Text) :
    (request.arguments defaultAccount false).map Argument.names =
      (request.arguments [] false).map Argument.names := by
  cases request with
  | carrier command => cases command <;> rfl
  | spin form => rfl

theorem arguments_distinct (request : Request) :
    ((request.arguments [] false).map Argument.names).Nodup := by
  cases request with
  | carrier command => cases command <;> decide
  | spin form => exact List.nodup_singleton _

theorem arguments_preset (request : Request) (defaultAccount : Text) (preset : Bool) :
    request.arguments defaultAccount preset ⊆ request.arguments defaultAccount false := by
  cases request with
  | carrier command => cases command <;> cases preset <;> simp [Request.arguments, Command.arguments]
  | spin form => exact List.Subset.refl _

theorem missing_mem_iff {request : Request} {defaultAccount : Text} {preset : Bool}
    {argument : Argument} :
    argument ∈ request.arguments defaultAccount preset ∧ argument.fallback = .missing ↔
      argument ∈ request.arguments [] false ∧ argument.fallback = .missing := by
  have same := arguments_missing request defaultAccount preset
  have member : ∀ arguments : List Argument,
      argument ∈ arguments.filter (fun a => a.fallback = .missing) ↔
        argument ∈ arguments ∧ argument.fallback = .missing := by simp
  rw [← member, ← member, same]

theorem arguments_injective {request : Request} {defaultAccount : Text} {left right : Argument}
    {preset other : Bool} (leftMember : left ∈ request.arguments defaultAccount preset)
    (rightMember : right ∈ request.arguments defaultAccount other) (names : left.names = right.names) :
    left = right := by
  have distinct := arguments_distinct request
  rw [← arguments_names request defaultAccount] at distinct
  exact List.inj_on_of_nodup_map distinct (arguments_preset _ _ _ leftMember)
    (arguments_preset _ _ _ rightMember) names

theorem given_eq_none_iff {property : Properties} {argument : Argument} :
    given property argument = none ↔
      argument.fallback = .missing ∧ firstOf property argument.names = none := by
  rw [given, Option.map_eq_none_iff, Argument.handed]
  cases firstOf property argument.names <;> cases argument.fallback <;> simp

section Requested

variable {property : Properties} (solid : ∀ name, property name ≠ some [])
include solid

/-- An argument is handed over when nothing needed is missing and it is one of the arguments. -/
theorem hands_iff {request : Request} {defaultAccount value : Text} {argument : Argument}
    {preset : Bool} (belongs : argument ∈ request.arguments defaultAccount preset) :
    request.Hands property defaultAccount argument value ↔
      (∀ other ∈ request.arguments [] false, other.fallback = .missing →
        firstOf property other.names ≠ none) ∧
      argument ∈ request.arguments defaultAccount
        (decide (property PropertyName.preset.written = some presetValue)) ∧
      argument.handed property = some (some value) := by
  have table := execution_arguments solid request defaultAccount
  rw [mapM_eq_filterMap] at table
  have filled : (∀ other ∈ request.arguments defaultAccount
        (decide (property PropertyName.preset.written = some presetValue)),
        given property other ≠ none) ↔
      ∀ other ∈ request.arguments [] false, other.fallback = .missing →
        firstOf property other.names ≠ none := by
    constructor
    · intro all other listed missing unread
      obtain ⟨member, -⟩ := missing_mem_iff.mpr ⟨listed, missing⟩
      exact all other member (given_eq_none_iff.mpr ⟨missing, unread⟩)
    · intro complete other listed refused
      obtain ⟨missing, unread⟩ := given_eq_none_iff.mp refused
      exact complete other (missing_mem_iff.mp ⟨listed, missing⟩).1 missing unread
  constructor
  · rintro ⟨execution, run, member⟩
    rw [run, Option.map_some] at table
    split at table
    · rename_i all
      rw [Option.some.inj table, List.mem_filterMap] at member
      obtain ⟨other, listed, read⟩ := member
      obtain ⟨handed, same, pair⟩ := Option.map_eq_some_iff.mp read
      obtain ⟨names, rfl⟩ := Prod.mk.inj pair
      obtain rfl := arguments_injective listed belongs names
      exact ⟨filled.mp all, listed, same⟩
    · contradiction
  · rintro ⟨complete, listed, handed⟩
    rw [if_pos (filled.mpr complete)] at table
    obtain ⟨execution, run, arguments⟩ := Option.map_eq_some_iff.mp table
    refine ⟨execution, run, ?_⟩
    rw [arguments, List.mem_filterMap]
    exact ⟨argument, listed, by rw [given, handed]; rfl⟩

end Requested

theorem firstOf_ne_none {property : Properties} {names : List PropertyName} :
    firstOf property names ≠ none ↔ ∃ name ∈ names, ∃ shown, property name.written = some shown := by
  rw [firstOf, ne_eq, List.findSome?_eq_none_iff]
  push Not
  simp only [Option.ne_none_iff_exists']

/-- When a request's text reaches the executor: it needs no escapes, nothing that would come before
it or replace it is read out of its own text, and that reading leaves nothing needed empty. -/
structure HandsOver (line : CommandLine) (request : Request) (defaultAccount : Text)
    (argument : Argument) (preferred : List PropertyName) (value : Text) : Prop where
  unescaped : Unescaped value
  unshadowed : ∀ other ∈ preferred, ∀ shown, ¬ (line.place other.written).Shown shown
  complete : ∀ other ∈ request.arguments [] false, other.fallback = .missing →
    ∃ name ∈ other.names, ∃ shown, (line.place name.written).Shown shown
  kept : (line.place PropertyName.preset.written).Shown presetValue →
    argument ∈ request.arguments defaultAccount true

/-- A message event that brings a text to its receiver. -/
def CarrierEventData.Delivers : CarrierEventData → Text → Prop
  | .textMessage _ _ _ body, text | .groupMessage _ _ _ _ body, text =>
      body = some (Utf8.encode text)
  | _, _ => False

theorem delivers_fact_iff {event : CarrierEvent} {sent value : Text}
    (delivers : event.data.Delivers sent) :
    (carrierNs ++ "text".toList, Term.literal value .string) ∈ event.statement.facts ↔
      sent = value := by
  have carried : Field.required "text" sent ∈ event.data.fields := by
    cases data : event.data
    all_goals rw [data] at delivers
    case textMessage contactUri conversationId messageId body =>
      obtain rfl : body = some (Utf8.encode sent) := delivers
      simp [CarrierEventData.fields, bytesToString, Utf8.lossy_encode]
    case groupMessage conversationId messageId contactUri displayName body =>
      obtain rfl : body = some (Utf8.encode sent) := delivers
      simp [CarrierEventData.fields, bytesToString, Utf8.lossy_encode]
    all_goals exact delivers.elim
  have fact := field_fact_iff carried (Term.literal value .string)
  have text : (Field.required "text" sent).name = "text".toList := rfl
  have term : (Field.required "text" sent).value.term = Term.literal sent .string := rfl
  rw [text, term] at fact
  rw [fact]
  constructor
  · exact fun same => (Term.literal.inj same.2).1
  · rintro rfl
    exact ⟨rfl, rfl⟩

section Requested

variable {line : CommandLine} {request : Request} {defaultAccount value : Text}
  {argument : Argument} {preferred : List PropertyName} {name : PropertyName}

theorem place_properties (read : PropertyName) (spelled : line.type ∈ request.spellings) :
    line.place read.written = propertyPlace read.written line.properties :=
  if_neg (not_suffix_spelling read spelled)

theorem names_read {preset : Bool} (belongs : argument ∈ request.arguments defaultAccount preset)
    (inside : name ∈ argument.names) : name ∈ request.reads := by
  have listed : argument.names ∈ (request.arguments [] false).map Argument.names := by
    rw [← arguments_names request defaultAccount]
    exact List.mem_map_of_mem (arguments_preset _ _ _ belongs)
  obtain ⟨other, member, same⟩ := List.mem_map.mp listed
  exact List.mem_cons_of_mem _ (List.mem_flatMap.mpr ⟨other, member, same ▸ inside⟩)

namespace Gives

variable (gives : Gives line request defaultAccount argument preferred name value)
include gives

theorem reads : ∀ other ∈ argument.names, other ∈ request.reads :=
  fun _ inside => names_read gives.belongs inside

theorem name_mem : name ∈ argument.names := by
  obtain ⟨later, names⟩ := gives.names
  simp [names]

theorem preferred_mem {other : PropertyName} (member : other ∈ preferred) :
    other ∈ argument.names := by
  obtain ⟨later, names⟩ := gives.names
  simp [names, member]

theorem own_eq : extractProperty line.text name.written = some (turtleEscape value) := by
  rw [extractProperty_eq_some_iff (written_isName name), place_properties name gives.spelled]
  have read := gives.reads name gives.name_mem
  obtain ⟨after, place⟩ := propertyPlace_own
    (fun property member differs => gives.others property member differs name read)
    (fun property member => gives.apart property member name read) gives.written
  rw [place]
  exact ⟨gives.nonempty, rfl⟩

theorem preferred_ne {other : PropertyName} (member : other ∈ preferred) {shown : Text}
    (shows : (line.place other.written).Shown shown) : shown ≠ value := by
  have read := gives.reads other (gives.preferred_mem member)
  have unused := gives.unused other member
  rw [place_properties other gives.spelled] at shows
  rcases propertyPlace_unused
      (fun property member differs => gives.others property member differs other read)
      (fun property member => gives.apart property member other read) unused with
    nowhere | ⟨content, after, rest, own, ends, found, place⟩
  · rw [nowhere] at shows
    exact shows.elim
  · rw [place] at shows
    obtain ⟨front, back, split, -⟩ := List.lookup_eq_some_iff.mp gives.written
    have written : (name.written, value) ∈ line.properties := by simp [split]
    obtain ⟨-, rfl⟩ := Prod.mk.inj (List.inj_on_of_nodup_map line.distinct own written rfl)
    refine shown_ne (fun property inside => line.names property (ends.subset inside)) ?_ found shows
    intro property inside suffix
    have listed := ends.subset inside
    have same := gives.apart property listed other read suffix
    have differs := List.lookup_eq_none_iff.mp unused property listed
    simp [same] at differs

theorem firstOf_unshadowed (unshadowed : ∀ other ∈ preferred, ∀ shown,
      ¬ (line.place other.written).Shown shown) :
    firstOf (extractProperty line.text) argument.names = some (turtleEscape value) := by
  obtain ⟨later, names⟩ := gives.names
  have silent : preferred.findSome? (fun other => extractProperty line.text other.written) = none := by
    rw [List.findSome?_eq_none_iff]
    intro other member
    rw [Option.eq_none_iff_forall_ne_some]
    exact fun shown read => unshadowed other member shown
      ((extractProperty_eq_some_iff (written_isName other)).mp read)
  rw [firstOf, names, List.findSome?_append, silent, Option.none_or, List.findSome?_cons,
    gives.own_eq]

theorem firstOf_shadowed {other : PropertyName} {shown : Text} (member : other ∈ preferred)
    (shows : (line.place other.written).Shown shown) :
    ∃ misread, misread ≠ value ∧
      firstOf (extractProperty line.text) argument.names = some misread := by
  obtain ⟨later, names⟩ := gives.names
  cases first : preferred.findSome? (fun other => extractProperty line.text other.written) with
  | none =>
      have silent := List.findSome?_eq_none_iff.mp first other member
      rw [(extractProperty_eq_some_iff (written_isName other)).mpr shows] at silent
      contradiction
  | some misread =>
      obtain ⟨earlier, inside, read⟩ := List.exists_of_findSome?_eq_some first
      refine ⟨misread, ?_, ?_⟩
      · exact gives.preferred_ne inside
          ((extractProperty_eq_some_iff (written_isName earlier)).mp read)
      · rw [firstOf, names, List.findSome?_append, first, Option.some_or]

theorem handed_iff :
    argument.handed (extractProperty line.text) = some (some value) ↔
      Unescaped value ∧
        ∀ other ∈ preferred, ∀ shown, ¬ (line.place other.written).Shown shown := by
  by_cases unshadowed : ∀ other ∈ preferred, ∀ shown, ¬ (line.place other.written).Shown shown
  · rw [Argument.handed, gives.firstOf_unshadowed unshadowed, ← eventEscape_eq_self_iff,
      ← turtleEscape_eq_eventEscape]
    simp only [Option.some.injEq]
    exact (and_iff_left unshadowed).symm
  · have shadowed := unshadowed
    push Not at shadowed
    obtain ⟨other, member, shown, shows⟩ := shadowed
    obtain ⟨misread, differs, first⟩ := gives.firstOf_shadowed member shows
    rw [Argument.handed, first]
    simp only [Option.some.injEq, differs, unshadowed, and_false]

theorem hands_iff_handsOver :
    request.Hands (extractProperty line.text) defaultAccount argument value ↔
      HandsOver line request defaultAccount argument preferred value := by
  have solid : ∀ read, extractProperty line.text read ≠ some [] :=
    fun _ read => extractProperty_nonempty read rfl
  have shows : ∀ (read : PropertyName) {shown : Text},
      extractProperty line.text read.written = some shown ↔
        (line.place read.written).Shown shown :=
    fun read => extractProperty_eq_some_iff (written_isName read)
  rw [hands_iff solid gives.belongs, gives.handed_iff]
  constructor
  · rintro ⟨complete, listed, unescaped, unshadowed⟩
    refine ⟨unescaped, unshadowed, ?_, ?_⟩
    · intro other member missing
      obtain ⟨name, inside, shown, read⟩ := firstOf_ne_none.mp (complete other member missing)
      exact ⟨name, inside, shown, (shows name).mp read⟩
    · intro shown
      rwa [decide_eq_true ((shows .preset).mpr shown)] at listed
  · rintro ⟨unescaped, unshadowed, complete, kept⟩
    refine ⟨?_, ?_, unescaped, unshadowed⟩
    · intro other member missing
      obtain ⟨name, inside, shown, read⟩ := complete other member missing
      exact firstOf_ne_none.mpr ⟨name, inside, shown, (shows name).mpr read⟩
    · by_cases preset :
          extractProperty line.text PropertyName.preset.written = some presetValue
      · rw [decide_eq_true preset]
        exact kept ((shows .preset).mp preset)
      · rw [decide_eq_false preset]
        exact arguments_preset _ _ _ gives.belongs

theorem hands_unique {left right : Text}
    (leftHanded : request.Hands (extractProperty line.text) defaultAccount argument left)
    (rightHanded : request.Hands (extractProperty line.text) defaultAccount argument right) :
    left = right := by
  have solid : ∀ read, extractProperty line.text read ≠ some [] :=
    fun _ read => extractProperty_nonempty read rfl
  have first := ((hands_iff solid gives.belongs).mp leftHanded).2.2
  rw [((hands_iff solid gives.belongs).mp rightHanded).2.2] at first
  simpa using first.symm

end Gives


/-- Exactly then the router hands the argument's value to the executor; and exactly then the value
is what a message event denotes that carries the handed text to its receiver. -/
theorem argument_handed_iff {Store Carrier : Type}
    (gives : Gives line request defaultAccount argument preferred name value)
    (host : Host Store Carrier) (world : World Store Carrier) :
    request.Performed line host defaultAccount world ∧
    (request.Hands (extractProperty line.text) defaultAccount argument value ↔
      HandsOver line request defaultAccount argument preferred value) ∧
    ∀ sent, request.Hands (extractProperty line.text) defaultAccount argument sent →
      ∀ event : CarrierEvent, event.data.Delivers sent →
        ((carrierNs ++ "text".toList, Term.literal value .string) ∈ event.statement.facts ↔
          HandsOver line request defaultAccount argument preferred value) := by
  have handed := gives.hands_iff_handsOver
  refine ⟨dispatch_request gives.spelled host defaultAccount world, handed, ?_⟩
  intro sent sends event delivers
  rw [← handed, delivers_fact_iff delivers]
  constructor
  · rintro rfl
    exact sends
  · exact fun own => gives.hands_unique sends own

end Requested

end Handed

section Messages

/-- `[] a carrier:SendMsg ; carrier:contactUri "bob" ; carrier:text "..." .` -/
def messageLine (text : Text) : CommandLine where
  type := "carrier:SendMsg".toList
  properties := [(PropertyName.contactUri.written, "bob".toList), (PropertyName.text.written, text)]
  typeName := sendMsg_named
  names := by
    have shape : IsName PropertyName.contactUri.written ∧ IsName PropertyName.text.written := by
      decide
    simpa using shape
  distinct := by
    change [PropertyName.contactUri.written, PropertyName.text.written].Nodup
    decide

def textArgument : Argument := .needed .text

theorem messageLine_gives {text : Text} (nonempty : text ≠ []) :
    Gives (messageLine text) (.carrier .sendMsg) [] textArgument [] .text text := by
  have spelled : "carrier:SendMsg".toList ∈ (Request.carrier .sendMsg).spellings := by decide
  have contact : ∀ read ∈ (Request.carrier .sendMsg).reads,
      ¬ read.written <:+: turtleEscape "bob".toList := by decide
  have listed : ∀ preset, textArgument ∈ (Request.carrier .sendMsg).arguments [] preset := by
    decide
  have differs : PropertyName.text.written ≠ PropertyName.contactUri.written := by decide
  have apart : ∀ read ∈ (Request.carrier .sendMsg).reads,
      (read.written <:+ PropertyName.contactUri.written →
        read.written = PropertyName.contactUri.written) ∧
      (read.written <:+ PropertyName.text.written →
        read.written = PropertyName.text.written) := by decide
  refine
    { spelled, nonempty, names := ⟨[], rfl⟩, unused := by simp, belongs := listed _,
      written := ?_, others := ?_, apart := ?_ }
  · change List.lookup PropertyName.text.written
      [(PropertyName.contactUri.written, _), (PropertyName.text.written, text)] = some text
    rw [List.lookup_cons, beq_eq_false_iff_ne.mpr differs, List.lookup_cons, beq_self_eq_true]
  · intro property member other
    rcases List.mem_cons.mp member with rfl | last
    · exact contact
    · exact absurd (congrArg Prod.fst (List.mem_singleton.mp last)) other
  · intro property member read inside
    rcases List.mem_cons.mp member with rfl | last
    · exact (apart read inside).1
    · rw [List.mem_singleton.mp last]
      exact (apart read inside).2

/-- A plain text arrives. -/
theorem argument_handed_iff_hi :
    HandsOver (messageLine "hi".toList) (.carrier .sendMsg) [] textArgument [] "hi".toList :=
  (argument_handed_iff (messageLine_gives (by decide)) idleHost ⟨(), (), none, []⟩).2.1.mp
    ⟨⟨.call (.sendMessage [] "bob".toList "hi".toList), none⟩, by decide, by decide⟩

/-- The receiver of a text with quotes gets the backslashes too. -/
theorem quotes_arrive_escaped :
    Gives (messageLine "say \"hi\"".toList) (.carrier .sendMsg) [] textArgument [] .text
        "say \"hi\"".toList ∧
      (Request.carrier .sendMsg).execution
          (extractProperty (messageLine "say \"hi\"".toList).text) [] =
        some ⟨.call (.sendMessage [] "bob".toList "say \\\"hi\\\"".toList), none⟩ ∧
      ¬ (Request.carrier .sendMsg).Hands (extractProperty (messageLine "say \"hi\"".toList).text) []
        textArgument "say \"hi\"".toList := by
  have run : (Request.carrier .sendMsg).execution
      (extractProperty (messageLine "say \"hi\"".toList).text) [] =
        some ⟨.call (.sendMessage [] "bob".toList "say \\\"hi\\\"".toList), none⟩ := by decide
  refine ⟨messageLine_gives (by decide), run, ?_⟩
  rintro ⟨execution, same, member⟩
  rw [run] at same
  cases same
  revert member
  decide

end Messages

end LeanAntenna
