import Antenna.DispatchCore
import Antenna.Library.Turtle

/-!
Which type the router sees in a statement. It searches the line for the first " a ", so the class
it finds is one of the statement's own exactly when that place is harmless.
-/

namespace LeanAntenna

open Text Turtle

/-- The prefixes under which the store reads a statement. -/
def storePrefixes : Prefixes := fun label => turtlePrefixes.lookup label

/-- `written` is a whole statement under the store's prefixes, with only white space between its
tokens. -/
structure WellFormed (written : List Written) (reading : Statement) : Prop where
  reads : statement storePrefixes (written.map Prod.fst) = some reading
  spaced : ∀ part ∈ written, ∀ c ∈ part.2, isSpace c = true

/-- `text` begins with the name of the class `type`, as an IRI or with a prefix the router knows. -/
inductive Spells : Text → Text → Prop where
  | iri (type rest : Text) (closed : '>' ∉ type) : Spells ('<' :: type ++ '>' :: rest) type
  | prefixed (piece rest label space name : Text)
      (unbracketed : (piece ++ rest).head? ≠ some '<')
      (ends : ∀ c ∈ rest.head?, c ∈ [' ', ';', '.'])
      (inside : ∀ c ∈ piece, c ∉ [' ', ';', '.'])
      (parts : trim piece = label ++ ':' :: name) (first : ':' ∉ label)
      (known : typeNamespace label = some space) :
      Spells (piece ++ rest) (space ++ name)

/-- The types that go to a handler; carrier types only where there is a carrier. -/
def Routed (hasCarrier : Bool) (type : Text) : Prop :=
  spNs <+: type ∨ (hasCarrier = true ∧ carrierNs <+: type) ∨ designNs <+: type ∨
    type = subscribeBlocklistType

/-- Written without escapes, dots and white space. (U+1680 is white space and a name character.) -/
def PlainName : Name → Prop
  | .iriRef raw => '\\' ∉ raw
  | .prefixed _ localName => ∀ c ∈ localName, c ∉ ['\\', '.'] ∧ isWhitespace c = false

/-- The " a " behind `before` is a type verb of the statement itself, and the class behind it is
plainly written and not directly followed by a comma. -/
def PlainlyTyped (written : List Written) (before : Text) : Prop :=
  ∃ front gap name gap' back,
    written = front ++ (.isA, ' ' :: gap) :: (.name name, gap') :: back ∧
      render front = before ++ [' '] ∧ PlainName name ∧
      (' ' ∈ gap' ∨ (back.map Prod.fst).head? ≠ some .comma)

/-- Unless the first " a " of the line is such a verb, it is not followed by the name of a routed
class that the statement lacks. -/
def RoutedByOwnType (written : List Written) (reading : Statement) (hasCarrier : Bool) : Prop :=
  ∀ before after, find (render written) " a ".toList = some (before, after) →
    ¬ PlainlyTyped written before →
      ∀ type, Spells (trimStart after) type → Routed hasCarrier type → reading.HasType type

section Scanning

theorem classAt_eq_some_iff {text type : Text} : classAt text = some type ↔ Spells text type := by
  unfold classAt
  constructor
  · intro found
    split at found
    · rename_i opens
      obtain ⟨rest, rfl⟩ : ∃ rest, text = '<' :: rest := by
        cases text with
        | nil => contradiction
        | cons c rest => exact ⟨rest, by simpa using opens⟩
      simp only [Option.map_eq_some_iff] at found
      obtain ⟨⟨before, after⟩, found, rfl⟩ := found
      obtain ⟨split, outside⟩ := splitOnce_eq_some_iff.mp found
      cases before with
      | nil => simp at split
      | cons c type =>
          obtain ⟨rfl, rfl⟩ : '<' = c ∧ rest = type ++ '>' :: after := by simpa using split
          exact Spells.iri type after fun member => outside (List.mem_cons_of_mem _ member)
    · rename_i opens
      simp only [Option.bind_eq_some_iff, Option.map_eq_some_iff] at found
      obtain ⟨⟨label, name⟩, parts, space, known, rfl⟩ := found
      obtain ⟨parts, first⟩ := splitOnce_eq_some_iff.mp parts
      obtain ⟨rest, split, ends⟩ := firstPiece_split [' ', ';', '.'] text
      have spelled := Spells.prefixed (firstPiece [' ', ';', '.'] text) rest label space name
        (by rwa [← split]) ends firstPiece_clear parts first known
      rwa [← split] at spelled
  · intro spelled
    cases spelled with
    | iri type rest closed =>
        have found : find ('<' :: type ++ '>' :: rest) ['>'] = some ('<' :: type, rest) :=
          splitOnce_first (by simpa using closed)
        rw [if_pos (by rfl), found]
        rfl
    | prefixed piece rest label space name unbracketed ends inside parts first known =>
        rw [if_neg unbracketed, firstPiece_of_split ends inside, parts, splitOnce_first first,
          Option.bind_some, known]
        rfl

end Scanning

section OwnType

theorem storePrefixes_mem {label space : Text} (known : storePrefixes label = some space) :
    (label, space) ∈ turtlePrefixes := by
  rw [storePrefixes, List.lookup_eq_some_iff] at known
  obtain ⟨front, back, split, -⟩ := known
  simp [split]

theorem typeNamespace_of_storePrefixes {label space type : Text}
    (known : storePrefixes label = some space) (routed : typeNamespace label = some type) :
    type = space := by
  have agree : ∀ entry ∈ turtlePrefixes,
      typeNamespace entry.1 = none ∨ typeNamespace entry.1 = some entry.2 := by decide
  have cases := agree _ (storePrefixes_mem known)
  simp only [routed, reduceCtorEq, Option.some.injEq, false_or] at cases
  exact cases

theorem storePrefixes_clean {label space : Text} (known : storePrefixes label = some space) :
    (∀ c ∈ label, c ∉ [':', ' ', ';', '.']) ∧
      ∃ c ∈ label.head?, isWhitespace c = false ∧ c ∉ ['<', '@', '#'] := by
  have clean : ∀ entry ∈ turtlePrefixes, (∀ c ∈ entry.1, c ∉ [':', ' ', ';', '.']) ∧
      ∃ c ∈ entry.1.head?, isWhitespace c = false ∧ c ∉ ['<', '@', '#'] := by decide
  exact clean _ (storePrefixes_mem known)

/-- The white space between two tokens up to its first blank, or all of it before a delimiter. -/
theorem gap_split {gap rest : Text} (ends : ' ' ∈ gap ∨ ∃ c ∈ rest.head?, c ∈ [';', '.'])
    (spaced : ∀ c ∈ gap, isSpace c = true) :
    ∃ blank more, gap ++ rest = blank ++ more ∧ (∀ c ∈ blank, isWhitespace c = true) ∧
      (∀ c ∈ blank, c ∉ [' ', ';', '.']) ∧ ∀ c ∈ more.head?, c ∈ [' ', ';', '.'] := by
  have split := List.takeWhile_append_dropWhile (p := fun c => c != ' ') (l := gap)
  refine ⟨gap.takeWhile (fun c => c != ' '), gap.dropWhile (fun c => c != ' ') ++ rest, ?_, ?_, ?_, ?_⟩
  · rw [← List.append_assoc, split]
  · intro c member
    exact isWhitespace_of_isSpace (spaced c ((List.takeWhile_prefix _).subset member))
  · intro c member
    have other : c ≠ ' ' := by simpa using List.mem_takeWhile_imp member
    have space := spaced c ((List.takeWhile_prefix _).subset member)
    simp only [isSpace, List.mem_cons, List.not_mem_nil, or_false, decide_eq_true_eq] at space
    rcases space with rfl | rfl | rfl | rfl
    · contradiction
    all_goals decide
  · intro c first
    cases remains : gap.dropWhile (fun c => c != ' ') with
    | nil =>
        rw [remains, List.append_nil] at split
        rcases ends with inside | ⟨d, head, delimiter⟩
        · rw [← split] at inside
          have other := List.mem_takeWhile_imp inside
          simp at other
        · rw [remains, List.nil_append, Option.mem_def.mp head] at first
          cases first
          exact List.mem_cons_of_mem _ delimiter
    | cons d more =>
        have stopped := List.head?_dropWhile_not (fun c => c != ' ') gap
        rw [remains] at stopped first
        cases first
        simp_all

/-- A plainly written class that the router reads is the class the name denotes. -/
theorem spelled_plain {name : Name} {rest type spelled : Text} (plain : PlainName name)
    (denotes : name.iri storePrefixes = some type)
    (ends : ∃ blank more, rest = blank ++ more ∧ (∀ c ∈ blank, isWhitespace c = true) ∧
      (∀ c ∈ blank, c ∉ [' ', ';', '.']) ∧ ∀ c ∈ more.head?, c ∈ [' ', ';', '.'])
    (spells : classAt (trimStart (name.text ++ rest)) = some spelled) : spelled = type := by
  cases name with
  | iriRef raw =>
      obtain ⟨rfl, valid⟩ := unescapeIri_plain plain denotes
      have closed : '>' ∉ type := by
        intro member
        have allowed := valid _ member
        contradiction
      have bracketed : classAt ('<' :: type ++ '>' :: rest) = some type :=
        classAt_eq_some_iff.mpr (Spells.iri type rest closed)
      rw [Name.text, List.append_assoc, List.cons_append, trimStart_cons (by rfl)] at spells
      simp only [List.cons_append, List.nil_append] at spells bracketed
      rw [bracketed] at spells
      exact (Option.some.inj spells).symm
  | prefixed label localName =>
      simp only [Name.iri, Option.bind_eq_some_iff] at denotes
      obtain ⟨space, known, localPart⟩ := denotes
      split at localPart
      · simp only [Option.map_eq_some_iff] at localPart
        obtain ⟨value, same, rfl⟩ := localPart
        obtain ⟨rfl, valid⟩ := unescapeLocal_plain (fun member => by
          simpa using (plain _ member).1) same
        obtain ⟨clean, first, head, visible, unlike⟩ := storePrefixes_clean known
        obtain ⟨tail, rfl⟩ : ∃ tail, label = first :: tail := by
          cases label with
          | nil => contradiction
          | cons c tail => exact ⟨tail, by simpa using head⟩
        obtain ⟨blank, more, rfl, spaces, between, delimited⟩ := ends
        have inside : ∀ c ∈ (first :: tail ++ ':' :: value) ++ blank, c ∉ [' ', ';', '.'] := by
          intro c member
          simp only [List.mem_append, List.mem_cons] at member
          rcases member with ((rfl | member) | rfl | member) | member
          · exact fun bad => clean c (by simp) (List.mem_cons_of_mem _ bad)
          · exact fun bad => clean c (by simp [member]) (List.mem_cons_of_mem _ bad)
          · decide
          · intro bad
            have allowed := valid c member
            have dotless := (plain c member).1
            simp only [List.mem_cons, List.not_mem_nil, or_false] at bad
            rcases bad with rfl | rfl | rfl
            · contradiction
            · contradiction
            · simp at dotless
          · exact between c member
        have trimmed : trim ((first :: tail ++ ':' :: value) ++ blank) =
            first :: tail ++ ':' :: value := by
          refine trim_append spaces (by simp) (by simpa using visible) ?_
          intro c last
          rw [List.getLast?_append] at last
          cases value with
          | nil =>
              cases last
              rfl
          | cons d value =>
              simp only [List.getLast?_cons_cons, Option.or_eq_some_iff, Option.mem_def] at last
              rcases last with last | ⟨missing, -⟩
              · exact (plain c (List.mem_of_getLast? last)).2
              · simp at missing
        have text : (Name.prefixed (first :: tail) value).text ++ (blank ++ more) =
            ((first :: tail ++ ':' :: value) ++ blank) ++ more := by
          simp [Name.text]
        rw [text, List.cons_append, List.cons_append, List.cons_append, trimStart_cons visible]
          at spells
        simp only [← List.cons_append] at spells
        unfold classAt at spells
        rw [if_neg (by simp_all), firstPiece_of_split delimited inside, trimmed,
          splitOnce_first fun member => clean ':' member (by simp), Option.bind_some] at spells
        simp only [Option.map_eq_some_iff] at spells
        obtain ⟨found, routed, rfl⟩ := spells
        rw [typeNamespace_of_storePrefixes known routed]
      · contradiction

theorem statement_head {written : List Written} {reading : Statement}
    (form : WellFormed written reading) :
    ∃ c rest, render written = c :: rest ∧ isWhitespace c = false ∧ c ∉ ['@', '#'] := by
  obtain ⟨reads, -⟩ := form
  cases written with
  | nil => contradiction
  | cons part written =>
      obtain ⟨token, gap⟩ := part
      simp only [statement, List.map_cons, Parse.steps_cons, Option.bind_eq_some_iff] at reads
      obtain ⟨-, ⟨next, stepped, -⟩, -⟩ := reads
      simp only [Parse.step, Parse.start] at stepped
      split at stepped
      · rename_i subject
        simp only [Option.map_eq_some_iff] at stepped
        obtain ⟨term, denotes, -⟩ := stepped
        rw [render_cons]
        cases token with
        | name name =>
            cases name with
            | iriRef raw => exact ⟨'<', _, rfl, rfl, by decide⟩
            | prefixed label localName =>
                simp only [Token.term, Name.iri, Option.map_eq_some_iff,
                  Option.bind_eq_some_iff] at denotes
                obtain ⟨-, ⟨space, known, -⟩, -⟩ := denotes
                obtain ⟨-, c, head, visible, unlike⟩ := storePrefixes_clean known
                cases label with
                | nil => contradiction
                | cons d label =>
                    cases head
                    refine ⟨c, _, rfl, visible, fun bad => unlike (List.mem_cons_of_mem _ bad)⟩
        | blankLabel label => exact ⟨'_', _, rfl, rfl, by decide⟩
        | anonymous => exact ⟨'[', _, rfl, rfl, by decide⟩
        | _ => contradiction
      · contradiction

/-- On a statement the router looks for the type in the text of the statement itself. -/
theorem route_statement {written : List Written} {reading : Statement} {line : Text}
    (form : WellFormed written reading) (trims : trim line = render written) (hasCarrier : Bool) :
    route line hasCarrier =
      match (find (render written) " a ".toList).bind fun parts => classAt (trimStart parts.2) with
      | none => .stored (trimStart line)
      | some type => routeOfType (trimStart line) type hasCarrier := by
  obtain ⟨c, rest, starts, visible, unlike⟩ := statement_head form
  obtain ⟨more, begins⟩ : ∃ more, trimStart line = c :: more := by
    obtain ⟨dropped, split⟩ := trimEnd_initial (trimStart line)
    rw [← split, show trimEnd (trimStart line) = c :: rest from trims.trans starts]
    exact ⟨_, rfl⟩
  have again : trim (trimStart line) = render written := by
    rw [trim, begins, trimStart_cons visible, ← begins]
    exact trims
  have stripped : stripLeadingDirectives line = trimStart line := by
    unfold stripLeadingDirectives
    cases line.length with
    | zero => rfl
    | succ rounds =>
        rw [stripDirectives, if_neg]
        rw [begins, List.head?_cons, Option.some.injEq]
        rintro rfl
        simp at unlike
  have content : ¬ (line = [] ∨ line.head? = some '#') := by
    rintro (rfl | comment)
    · contradiction
    · cases line with
      | nil => contradiction
      | cons d line =>
          cases comment
          rw [trimStart_cons (by rfl)] at begins
          cases begins
          simp at unlike
  rw [route, if_neg content, stripped, if_neg (by simp [begins]), extractType, again] <;> rfl

theorem handedType_routeOfType {line type handed : Text} {hasCarrier : Bool} :
    (routeOfType line type hasCarrier).handedType = some handed ↔
      type = handed ∧ Routed hasCarrier type := by
  have apart : carrierNs <+: type → ¬ designNs <+: type ∧ type ≠ subscribeBlocklistType := by
    intro carrier
    constructor
    · intro design
      have nested := List.prefix_of_prefix_length_le design carrier (by decide)
      revert nested
      decide
    · rintro rfl
      revert carrier
      decide
  unfold routeOfType Routed
  split
  · simp_all [Route.handedType]
  · split
    · split
      · simp_all [Route.handedType]
      · rename_i notSpin carrier noCarrier
        obtain ⟨notDesign, notSubscribe⟩ := apart carrier
        simp_all [Route.handedType]
    · split
      · simp_all [Route.handedType]
      · split <;> simp_all [Route.handedType]

/-- The class a plain type verb of the statement spells is one of the statement's types. -/
theorem hasType_of_plainlyTyped {written : List Written} {reading : Statement}
    {before after spelled : Text} (form : WellFormed written reading)
    (split : render written = before ++ " a ".toList ++ after)
    (own : PlainlyTyped written before) (spells : classAt (trimStart after) = some spelled) :
    reading.HasType spelled := by
  obtain ⟨front, gap, name, behind, back, rfl, place, plain, next⟩ := own
  have reads := form.reads
  rw [List.map_append, List.map_cons, List.map_cons] at reads
  obtain ⟨type, denotes, member, token, head, follows⟩ := own_type reads
  have spaced : ∀ c ∈ gap, isWhitespace c = true := by
    intro c inside
    exact isWhitespace_of_isSpace (form.spaced (.isA, ' ' :: gap) (by simp) c (by simp [inside]))
  have text : after = gap ++ (name.text ++ (behind ++ render back)) := by
    rw [render_append, place] at split
    simpa [Token.text] using split.symm
  rw [text, trimStart_append spaced] at spells
  have same : spelled = type := by
    refine spelled_plain plain denotes (gap_split ?_ ?_) spells
    · refine next.imp_right fun noComma => ?_
      cases back with
      | nil => contradiction
      | cons part back =>
          obtain ⟨first, gap⟩ := part
          cases head
          rcases follows with rfl | rfl | rfl
          · exact absurd rfl noComma
          · exact ⟨';', rfl, by decide⟩
          · exact ⟨'.', rfl, by decide⟩
    · exact form.spaced (.name name, behind) (by simp)
  rw [same]
  exact member

/-- The router hands a statement only to handlers of the statement's own types exactly when the
first " a " of its line is such a place. -/
theorem route_own_type_iff {written : List Written} {reading : Statement} {line : Text}
    (form : WellFormed written reading) (trims : trim line = render written) (hasCarrier : Bool) :
    (∀ type, (route line hasCarrier).handedType = some type → reading.HasType type) ↔
      RoutedByOwnType written reading hasCarrier := by
  rw [route_statement form trims]
  constructor
  · intro sound before after found _ type spells routed
    refine sound type ?_
    rw [found, Option.bind_some, classAt_eq_some_iff.mpr spells]
    exact handedType_routeOfType.mpr ⟨rfl, routed⟩
  · intro harmless type handed
    split at handed
    · contradiction
    · rename_i spelled looked
      obtain ⟨rfl, routed⟩ := handedType_routeOfType.mp handed
      obtain ⟨⟨before, after⟩, found, spells⟩ := Option.bind_eq_some_iff.mp looked
      by_cases own : PlainlyTyped written before
      · exact hasType_of_plainlyTyped form (find_split found) own spells
      · exact harmless before after found own _ (classAt_eq_some_iff.mp spells) routed

end OwnType

/-- `[] sp:text "ASK" ; a sp:Ask .` -/
def askStatement : List Written :=
  [(.anonymous, [' ']), (.name (.prefixed "sp".toList "text".toList), [' ']),
    (.literal .double "ASK".toList .plain, [' ']), (.semicolon, [' ']), (.isA, [' ']),
    (.name (.prefixed "sp".toList "Ask".toList), [' ']), (.dot, [])]

def askReading : Statement :=
  { subject := .anonymous 0
    facts := [(spNs ++ "text".toList, .literal "ASK".toList .string),
      (rdfType, .iri (spNs ++ "Ask".toList))] }

theorem askStatement_wellFormed : WellFormed askStatement askReading :=
  ⟨by decide, by decide⟩

theorem route_own_type_iff_ask :
    WellFormed askStatement askReading ∧
      trim ("  ".toList ++ render askStatement) = render askStatement ∧
      ((∀ type, (route ("  ".toList ++ render askStatement) true).handedType = some type →
        askReading.HasType type) ↔ RoutedByOwnType askStatement askReading true) :=
  ⟨askStatement_wellFormed, by decide,
    route_own_type_iff askStatement_wellFormed (by decide) true⟩

/-- `<urn:x> <urn:p> "hi a sp:Modify ; sp:text CLEAR\tALL ;" .` with a tab inside the literal. -/
def noteStatement : List Written :=
  [(.name (.iriRef "urn:x".toList), [' ']), (.name (.iriRef "urn:p".toList), [' ']),
    (.literal .double "hi a sp:Modify ; sp:text CLEAR\tALL ;".toList .plain, [' ']), (.dot, [])]

def noteReading : Statement :=
  { subject := .iri "urn:x".toList
    facts := [("urn:p".toList, .literal "hi a sp:Modify ; sp:text CLEAR\tALL ;".toList .string)] }

/-- A note without any type is run as the SPARQL update that its text spells. -/
theorem note_routed_as_update :
    WellFormed noteStatement noteReading ∧
      route (render noteStatement) true =
        .spin (render noteStatement) (spNs ++ "Modify".toList) ∧
      spText (extractProperty (render noteStatement)) = some "CLEAR\tALL".toList ∧
      ¬ noteReading.HasType (spNs ++ "Modify".toList) :=
  ⟨⟨by decide, by decide⟩, by decide, by decide, by decide⟩

end LeanAntenna
