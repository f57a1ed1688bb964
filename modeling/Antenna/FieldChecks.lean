import Antenna.JsonChecks
import Antenna.Library.JsonText

/-!
Whether `extract_json_field` finds the top-level member of a name, or something that only looks like
its name.
-/

namespace LeanAntenna

open Text Json

def namePattern (field : Text) : Text := '"' :: field ++ ['"']

/-- What `extract_json_field` does behind the name that it found. -/
def readField (field afterKey : Text) : Except Text Text :=
  match trimStart afterKey with
  | ':' :: rest =>
      let afterColon := trimStart rest
      if afterColon.head? = some '"' then parseJsonString afterColon
      else .error ("field '".toList ++ field ++ "' is not a string".toList)
  | _ => .error ("malformed JSON after field '".toList ++ field ++ "'".toList)

theorem extractJsonField_eq (json field : Text) :
    extractJsonField json field =
      match behind json (namePattern field) with
      | none => .error ("field '".toList ++ field ++ "' not found in response".toList)
      | some afterKey => readField field afterKey := rfl

section Reading

/-- A reader of the text stops at a quote in it, whatever follows, or takes it as a whole. -/
def Closes (text : Text) : Prop :=
  ∀ out, ('"' ∈ text → ∃ result, ∀ follow, readJson out (text ++ follow) = .ok result) ∧
    ('"' ∉ text → ∀ follow, readJson out (text ++ follow) = readJson (out ++ text) follow)

theorem readJson_literal (out : Text) {pieces : List Piece} (legal : ∀ piece ∈ pieces, piece.Legal)
    (rest : Text) :
    readJson out (content pieces ++ '"' :: rest) = .ok (out ++ pieces.flatMap readPiece) := by
  rw [readJson_content out legal, readJson]

theorem closes_content {pieces : List Piece} (legal : ∀ piece ∈ pieces, piece.Legal) (rest : Text) :
    Closes (content pieces ++ '"' :: rest) := by
  intro out
  refine ⟨fun _ => ⟨out ++ pieces.flatMap readPiece, fun follow => ?_⟩, fun clear => ?_⟩
  · rw [List.append_assoc]
    exact readJson_literal out legal _
  · simp at clear

/-- Outside of its literals a text is read up to the next quote. -/
theorem closes_segmented {text : Text} (segmented : Segmented text) : Closes text := by
  induction segmented with
  | nil => exact fun out => ⟨fun member => by simp at member, fun _ follow => by simp⟩
  | @plain c rest plain later ih =>
      intro out
      obtain ⟨quoted, unquoted⟩ := ih (out ++ [c])
      have first : ∀ follow, readJson out (c :: rest ++ follow) = readJson (out ++ [c]) (rest ++ follow) :=
        fun follow => readJson_plain out plain (rest ++ follow)
      have other : '"' ≠ c := by
        rintro rfl
        simp at plain
      constructor
      · intro member
        obtain ⟨result, read⟩ := quoted ((List.mem_cons.mp member).resolve_left other)
        exact ⟨result, fun follow => (first follow).trans (read follow)⟩
      · intro clear follow
        rw [first, unquoted fun member => clear (List.mem_cons_of_mem c member)]
        simp
  | @literal pieces rest legal later ih =>
      intro out
      refine ⟨fun _ => ⟨out, fun follow => ?_⟩, fun clear => ?_⟩
      · rw [literal, List.cons_append, List.cons_append, List.cons_append, readJson]
      · simp [literal] at clear

/-- In a literal a quote stands only in an escape. -/
theorem content_split {pieces : List Piece} (legal : ∀ piece ∈ pieces, piece.Legal) {before behind : Text}
    (split : content pieces = before ++ '"' :: behind) :
    ∃ rest : List Piece, (∀ piece ∈ rest, piece.Legal) ∧ behind = content rest := by
  induction pieces generalizing before with
  | nil => simp [content] at split
  | cons piece pieces ih =>
      have first := legal piece List.mem_cons_self
      have others : ∀ other ∈ pieces, other.Legal := fun other member =>
        legal other (List.mem_cons_of_mem piece member)
      rw [content, List.flatMap_cons, ← content] at split
      rcases List.append_eq_append_iff.mp split with ⟨more, -, tail⟩ | ⟨more, own, tail⟩
      · exact ih others tail
      · cases more with
        | nil => exact @ih others [] tail.symm
        | cons c more =>
            cases tail
            obtain rfl := Piece.quoted first (by simp [own])
            have last : more = [] := by
              rcases before with - | ⟨d, - | ⟨e, before⟩⟩
              · cases own
              · exact ((List.cons.inj (List.cons.inj own).2).2).symm
              · simp [Piece.text] at own
            subst last
            exact ⟨pieces, others, rfl⟩

/-- Behind each quote of a text a reader stops at a quote that closes a literal or opens one. -/
theorem closes_behind {text : Text} (segmented : Segmented text) {before behind : Text}
    (split : text = before ++ '"' :: behind) : Closes behind := by
  induction segmented generalizing before with
  | nil => simp at split
  | @plain c rest plain later ih =>
      cases before with
      | nil =>
          cases split
          simp at plain
      | cons d before => exact ih (List.cons.inj split).2
  | @literal pieces rest legal later ih =>
      have whole : literal pieces ++ rest = '"' :: (content pieces ++ '"' :: rest) := by simp [literal]
      rw [whole] at split
      cases before with
      | nil =>
          cases split
          exact closes_content legal rest
      | cons d before =>
          have inner := (List.cons.inj split).2
          rcases List.append_eq_append_iff.mp inner with ⟨more, rfl, tail⟩ | ⟨more, inside, tail⟩
          · cases more with
            | nil =>
                cases tail
                exact closes_segmented later
            | cons e more => exact ih (List.cons.inj tail).2
          · cases more with
            | nil =>
                cases tail
                exact closes_segmented later
            | cons e more =>
                cases tail
                obtain ⟨others, legal, rfl⟩ := content_split legal inside
                exact closes_content legal rest

theorem trimStart_split (text : Text) :
    ∃ space rest, text = space ++ rest ∧ (∀ c ∈ space, isWhitespace c = true) ∧
      ∀ c ∈ rest.head?, isWhitespace c = false := by
  refine ⟨text.takeWhile isWhitespace, text.dropWhile isWhitespace,
    List.takeWhile_append_dropWhile.symm, fun c member => List.mem_takeWhile_imp member, ?_⟩
  intro c head
  have stops := List.head?_dropWhile_not isWhitespace text
  rw [head] at stops
  simpa using stops

variable {gap space : Text}

theorem readField_colon (blank : ∀ c ∈ gap ++ space, isWhitespace c = true) (field : Text)
    {rest : Text} (shown : ∀ c ∈ rest.head?, isWhitespace c = false) :
    readField field (gap ++ ':' :: space ++ rest) =
      if rest.head? = some '"' then parseJsonString rest
      else .error ("field '".toList ++ field ++ "' is not a string".toList) := by
  have colon : isWhitespace ':' = false := by decide
  have visible : trimStart rest = rest := by
    cases rest with
    | nil => rfl
    | cons c rest => exact trimStart_cons (shown c rfl)
  rw [readField, List.append_assoc,
    trimStart_append fun c member => blank c (List.mem_append_left space member), List.cons_append,
    trimStart_cons colon]
  simp only
  rw [trimStart_append fun c member => blank c (List.mem_append_right gap member), visible]

theorem readField_string (blank : ∀ c ∈ gap ++ space, isWhitespace c = true) (field body : Text) :
    readField field (gap ++ ':' :: space ++ '"' :: body) = readJson [] body := by
  have quote : ∀ c ∈ ('"' :: body).head?, isWhitespace c = false := by
    rintro c ⟨⟩
    decide
  rw [readField_colon blank field quote, List.head?_cons, if_pos rfl, parseJsonString]

/-- Behind a name stand a colon and a string, a colon alone, or what is refused at once. -/
theorem readField_cases (field after : Text) :
    (∃ gap space body, after = gap ++ ':' :: space ++ '"' :: body ∧
      ∀ c ∈ gap ++ space, isWhitespace c = true) ∨
    (∃ gap space, after = gap ++ ':' :: space ∧ ∀ c ∈ gap ++ space, isWhitespace c = true) ∨
    ((∃ reason, readField field after = .error reason) ∧
      ∃ reason, ∀ follow, readField field (after ++ '"' :: follow) = .error reason) := by
  have quote : isWhitespace '"' = false := by decide
  have refused : ∀ c rest, isWhitespace c = false → c ≠ ':' → ∀ gap, (∀ c ∈ gap, isWhitespace c = true) →
      readField field (gap ++ c :: rest) =
        .error ("malformed JSON after field '".toList ++ field ++ "'".toList) := by
    intro c rest visible other gap blank
    rw [readField, trimStart_append blank, trimStart_cons visible]
    split
    · rename_i same
      exact absurd (List.cons.inj same).1 other
    · rfl
  obtain ⟨gap, rest, rfl, blank, visible⟩ := trimStart_split after
  cases rest with
  | nil =>
      have empty : readField field (gap ++ []) =
          .error ("malformed JSON after field '".toList ++ field ++ "'".toList) := by
        rw [readField, trimStart_append blank]
        rfl
      have marked := fun follow => refused '"' follow quote (by decide) gap blank
      rw [List.append_nil] at empty ⊢
      exact .inr (.inr ⟨⟨_, empty⟩, _, marked⟩)
  | cons c rest =>
      by_cases colon : c = ':'
      · subst colon
        obtain ⟨space, body, rfl, empty, shown⟩ := trimStart_split rest
        have spaces : ∀ c ∈ gap ++ space, isWhitespace c = true := fun c member =>
          (List.mem_append.mp member).elim (blank c) (empty c)
        cases body with
        | nil => exact .inr (.inl ⟨gap, space, by rw [List.append_nil], spaces⟩)
        | cons d body =>
            have split : gap ++ ':' :: (space ++ d :: body) = gap ++ ':' :: space ++ d :: body := by simp
            by_cases opens : d = '"'
            · subst opens
              exact .inl ⟨gap, space, body, split, spaces⟩
            · have other : ∀ rest, readField field (gap ++ ':' :: space ++ d :: rest) =
                  .error ("field '".toList ++ field ++ "' is not a string".toList) := fun rest => by
                have first : ∀ c ∈ (d :: rest).head?, isWhitespace c = false := by
                  rintro c ⟨⟩
                  exact shown d rfl
                rw [readField_colon spaces field first, List.head?_cons, if_neg (by simpa using opens)]
              rw [split]
              have behind : ∀ follow, readField field (gap ++ ':' :: space ++ d :: body ++ '"' :: follow) =
                  .error ("field '".toList ++ field ++ "' is not a string".toList) := fun follow => by
                rw [List.append_assoc, List.cons_append]
                exact other _
              exact .inr (.inr ⟨⟨_, other body⟩, _, behind⟩)
      · have first := fun rest => refused c rest (visible c rfl) colon gap blank
        have behind : ∀ follow, readField field (gap ++ c :: rest ++ '"' :: follow) =
            .error ("malformed JSON after field '".toList ++ field ++ "'".toList) := fun follow => by
          rw [List.append_assoc, List.cons_append]
          exact first _
        exact .inr (.inr ⟨⟨_, first rest⟩, _, behind⟩)

/-- Behind a name that is found, what stands in front of the next quote decides, unless that is only
a colon. -/
theorem readField_fixed (field : Text) {text before after : Text} (segmented : Segmented text)
    (split : text = before ++ after) :
    (∃ gap space, after = gap ++ ':' :: space ∧ ∀ c ∈ gap ++ space, isWhitespace c = true) ∨
      ∃ result, ∀ follow, readField field (after ++ '"' :: follow) = result := by
  rcases readField_cases field after with ⟨gap, space, body, rfl, blank⟩ | colon | ⟨-, reason, refused⟩
  · right
    have closes : Closes body := by
      refine @closes_behind text segmented (before ++ gap ++ ':' :: space) body ?_
      rw [split]
      simp
    have read : ∀ follow, readField field (gap ++ ':' :: space ++ '"' :: body ++ '"' :: follow) =
        readJson [] (body ++ '"' :: follow) := fun follow => by
      rw [← readField_string blank field]
      simp
    obtain ⟨quoted, unquoted⟩ := closes []
    by_cases inside : '"' ∈ body
    · obtain ⟨result, taken⟩ := quoted inside
      exact ⟨.ok result, fun follow => (read follow).trans (taken _)⟩
    · refine ⟨.ok body, fun follow => ?_⟩
      rw [read, unquoted inside, List.nil_append, readJson]
  · exact .inl colon
  · exact .inr ⟨_, refused⟩

end Reading

section Sites

/-- The member's name is written without escapes, and nothing in front of it looks like it. -/
def NamedFirst (site : Site) (field : Text) : Prop :=
  content site.member.name = field ∧ ¬ namePattern field <:+: site.front ++ '"' :: field

theorem last_mark {mark : Char} {front left back right : Text} (clear : mark ∉ left)
    (alsoClear : mark ∉ right) (same : front ++ mark :: left = back ++ mark :: right) :
    front = back ∧ left = right := by
  rcases List.append_eq_append_iff.mp same with ⟨more, rfl, tail⟩ | ⟨more, rfl, tail⟩
  · cases more with
    | nil => exact ⟨(List.append_nil _).symm, (List.cons.inj tail).2⟩
    | cons c more =>
        cases tail
        simp at clear
  · cases more with
    | nil => exact ⟨List.append_nil _, ((List.cons.inj tail).2).symm⟩
    | cons c more =>
        cases tail
        simp at alsoClear

/-- A name that is written as it ends a text is the whole of its literal. -/
theorem name_whole {pieces : List Piece} {field front before : Text} (denotes : Denotes pieces field)
    (same : front ++ '"' :: content pieces = before ++ '"' :: field) :
    front = before ∧ content pieces = field := by
  obtain ⟨longer, quotes⟩ := content_sizes denotes
  rcases List.append_eq_append_iff.mp same with ⟨more, rfl, tail⟩ | ⟨more, rfl, tail⟩
  · cases more with
    | nil => exact ⟨(List.append_nil _).symm, (List.cons.inj tail).2⟩
    | cons c more =>
        rw [List.cons_append] at tail
        obtain ⟨rfl, inner⟩ := List.cons.inj tail
        rw [inner, List.count_append, List.count_cons_self] at quotes
        omega
  · cases more with
    | nil => exact ⟨List.append_nil _, ((List.cons.inj tail).2).symm⟩
    | cons c more =>
        rw [List.cons_append] at tail
        obtain ⟨rfl, inner⟩ := List.cons.inj tail
        rw [inner, List.length_append, List.length_cons] at longer
        omega

variable {site : Site} {field : Text}

/-- The first name that looks like the member's is its own. -/
theorem find_namedFirst (named : NamedFirst site field) (rest : Text) :
    find (site.front ++ (literal site.member.name ++ rest)) (namePattern field) = some (site.front, rest) := by
  obtain ⟨plain, absent⟩ := named
  have whole : site.front ++ (literal site.member.name ++ rest) =
      site.front ++ namePattern field ++ rest := by
    simp [literal, plain, namePattern]
  rw [whole]
  refine find_of_first rfl fun earlier later again => ?_
  by_contra short
  have sizes : (earlier ++ namePattern field).length ≤ (site.front ++ '"' :: field).length := by
    simp only [namePattern, List.length_append, List.length_cons, List.length_nil]
    omega
  have split : site.front ++ namePattern field ++ rest = (site.front ++ '"' :: field) ++ '"' :: rest := by
    simp [namePattern]
  rw [split] at again
  have inside : earlier ++ namePattern field <+: site.front ++ '"' :: field :=
    List.prefix_of_prefix_length_le ⟨later, again.symm⟩ (List.prefix_append _ _) sizes
  exact absent ((List.suffix_append earlier _).isInfix.trans inside.isInfix)

/-- A member that is named first is found, and read as far as the reader knows its escapes. -/
theorem extract_namedFirst (named : NamedFirst site field) {pieces : List Piece}
    (legal : ∀ piece ∈ pieces, piece.Legal) :
    extractJsonField (site.fill legal).text field = .ok (pieces.flatMap readPiece) := by
  have spaces : ∀ c ∈ [' ', '\t', '\n', '\r'], isWhitespace c = true := by decide
  have blank := site.member.blank
  simp only [blank_append] at blank
  obtain ⟨⟨⟨-, gap⟩, space⟩, -⟩ := blank
  have between : ∀ c ∈ site.member.gap ++ site.member.space, isWhitespace c = true := fun c member =>
    (List.mem_append.mp member).elim (fun inside => spaces c (gap c inside)) fun inside =>
      spaces c (space c inside)
  have value : site.member.gap ++ ':' :: (site.member.space ++ (literal pieces ++ site.back)) =
      site.member.gap ++ ':' :: site.member.space ++ '"' :: (content pieces ++ '"' :: site.back) := by
    simp [literal]
  rw [extractJsonField_eq, behind, Site.text_fill, find_namedFirst named, value]
  simp only [Option.map_some]
  rw [readField_string between, readJson_literal [] legal, List.nil_append]

/-- A value of one letter that is longer than the name. -/
def filler (field : Text) (c : Char) : List Piece := (List.replicate (field.length + 1) c).map .plain

theorem filler_denotes (field : Text) {c : Char} (letter : c ∈ ['x', 'y']) :
    Denotes (filler field c) (List.replicate (field.length + 1) c) := by
  have plain : ∀ c ∈ ['x', 'y'], 0x20 ≤ c.toNat ∧ c ∉ ['"', '\\'] := by decide
  apply denotes_plain
  intro d member
  rw [List.eq_of_mem_replicate member]
  exact plain c letter

theorem filler_differs {field : Text} :
    (.ok (List.replicate (field.length + 1) 'x') : Except Text Text) ≠
      .ok (List.replicate (field.length + 1) 'y') := by
  simp [List.replicate_succ]

/-- The text up to the quote that opens the value. -/
def opening (site : Site) : Text :=
  site.front ++ (literal site.member.name ++ (site.member.gap ++ ':' :: site.member.space)) ++ ['"']

theorem text_filler (site : Site) (field : Text) {c : Char} (letter : c ∈ ['x', 'y']) :
    (site.fill (filler_denotes field letter).legal).text =
      opening site ++ (List.replicate (field.length + 1) c ++ '"' :: site.back) := by
  have value : literal (filler field c) = '"' :: List.replicate (field.length + 1) c ++ ['"'] := by
    rw [literal, filler, content_plain]
  rw [Site.text_fill, value, opening]
  simp

/-- Where the name is found in front of the value, its own place is the only one to read it from. -/
theorem namedFirst_of_before (names : Denotes site.member.name field) {before after : Text}
    (found : find (opening site) (namePattern field) = some (before, after))
    (reads : ∀ c ∈ ['x', 'y'],
      readField field (after ++ (List.replicate (field.length + 1) c ++ '"' :: site.back)) =
        .ok (List.replicate (field.length + 1) c)) : NamedFirst site field := by
  obtain ⟨split, least⟩ := find_first found
  have blanks : ∀ c ∈ [' ', '\t', '\n', '\r'], c ≠ '"' := by decide
  have blank := site.member.blank
  simp only [blank_append] at blank
  obtain ⟨⟨⟨-, gap⟩, space⟩, -⟩ := blank
  rcases List.eq_nil_or_concat after with rfl | ⟨after, last, rfl⟩
  · have read := reads 'x' (by decide)
    have letter : isWhitespace 'x' = false := by decide
    rw [List.nil_append, List.replicate_succ, List.cons_append, readField, trimStart_cons letter] at read
    cases read
  · rw [List.concat_eq_append, ← List.append_assoc, opening] at split
    have quote : ['"'] = [last] := List.append_inj_right' split rfl
    obtain rfl := (List.cons.inj quote).1
    have front := List.append_inj_left' split rfl
    rcases readField_fixed field site.segmented front with ⟨near, far, rfl, empty⟩ | ⟨result, fixed⟩
    · have clear : '"' ∉ near ++ ':' :: far := by
        have visible : isWhitespace '"' = false := by decide
        intro member
        rcases List.mem_append.mp member with inside | inside
        · simpa [visible] using empty '"' (List.mem_append_left far inside)
        · rcases List.mem_cons.mp inside with same | inside
          · cases same
          · simpa [visible] using empty '"' (List.mem_append_right near inside)
      have ownClear : '"' ∉ site.member.gap ++ ':' :: site.member.space := by
        intro member
        rcases List.mem_append.mp member with inside | inside
        · exact blanks '"' (gap '"' inside) rfl
        · rcases List.mem_cons.mp inside with same | inside
          · cases same
          · exact blanks '"' (space '"' inside) rfl
      have marks : (site.front ++ '"' :: content site.member.name) ++
          '"' :: (site.member.gap ++ ':' :: site.member.space) =
            (before ++ '"' :: field) ++ '"' :: (near ++ ':' :: far) := by
        simpa [literal, namePattern] using front
      obtain ⟨same, whole⟩ := name_whole names (last_mark ownClear clear marks).1
      refine ⟨whole, ?_⟩
      rintro ⟨earlier, later, inside⟩
      have again : opening site = earlier ++ namePattern field ++
          (later ++ '"' :: (site.member.gap ++ ':' :: site.member.space) ++ ['"']) := by
        rw [← List.append_assoc, ← List.append_assoc, inside, opening, literal, whole]
        simp
      have bound := least _ _ again
      have sizes := congrArg List.length inside
      simp only [namePattern, List.length_append, List.length_cons, List.length_nil, ← same] at sizes bound
      omega
    · have first := reads 'x' (by decide)
      have second := reads 'y' (by decide)
      rw [List.concat_eq_append, List.append_assoc] at first second
      exact absurd ((first.symm.trans (fixed _)).trans ((fixed _).symm.trans second)) filler_differs

/-- If two such values are both found, the member is named first. -/
theorem namedFirst_of_filler (names : Denotes site.member.name field)
    (found : ∀ c, (letter : c ∈ ['x', 'y']) →
      extractJsonField (site.fill (filler_denotes field letter).legal).text field =
        .ok (List.replicate (field.length + 1) c)) : NamedFirst site field := by
  have clear : ∀ c ∈ ['x', 'y'], '"' ∉ List.replicate (field.length + 1) c := by
    intro c letter member
    have other : ∀ c ∈ ['x', 'y'], '"' ≠ c := by decide
    exact other c letter (List.eq_of_mem_replicate member)
  have long : ∀ c : Char, field.length < (List.replicate (field.length + 1) c).length := by simp
  have across := fun (c : Char) (letter : c ∈ ['x', 'y']) =>
    find_across (clear c letter) (long c) (opening site) ('"' :: site.back)
  have extracted : ∀ c, (letter : c ∈ ['x', 'y']) →
      extractJsonField (opening site ++ (List.replicate (field.length + 1) c ++ '"' :: site.back)) field =
        .ok (List.replicate (field.length + 1) c) := fun c letter => by
    rw [← text_filler site field letter, found c letter]
  cases early : find (opening site) (namePattern field) with
  | some parts =>
      obtain ⟨before, after⟩ := parts
      refine namedFirst_of_before names early fun c letter => ?_
      have searched := across c letter
      rw [show '"' :: field ++ ['"'] = namePattern field from rfl, early] at searched
      rw [← extracted c letter, extractJsonField_eq, behind, searched]
      rfl
  | none =>
      have same : ∀ c, c ∈ ['x', 'y'] →
          behind (opening site ++ (List.replicate (field.length + 1) c ++ '"' :: site.back))
            (namePattern field) = (find ('"' :: site.back) (namePattern field)).map Prod.snd := by
        intro c letter
        have searched := across c letter
        rw [show '"' :: field ++ ['"'] = namePattern field from rfl, early] at searched
        rw [behind, searched]
        dsimp only
        rw [Option.map_map]
        rfl
      have first := extracted 'x' (by decide)
      have second := extracted 'y' (by decide)
      rw [extractJsonField_eq, same _ (by decide)] at first second
      exact absurd (first.symm.trans second) filler_differs

end Sites

section Absence

/-- A colon and the quotes of a string follow the first text that looks like the name. -/
def ShowsString (text field : Text) : Prop :=
  ∃ before gap space body, find text (namePattern field) = some (before, gap ++ ':' :: space ++ '"' :: body) ∧
    (∀ c ∈ gap ++ space, isWhitespace c = true) ∧ '"' ∈ body

/-- Nothing is returned exactly if no string follows what looks like the name first. -/
theorem extract_refused_iff (object : Object) (field : Text) :
    (∃ reason, extractJsonField object.text field = .error reason) ↔ ¬ ShowsString object.text field := by
  rw [extractJsonField_eq, behind]
  cases found : find object.text (namePattern field) with
  | none =>
      refine iff_of_true ⟨_, rfl⟩ ?_
      rintro ⟨before, gap, space, body, same, -⟩
      rw [found] at same
      cases same
  | some parts =>
      obtain ⟨before, after⟩ := parts
      have closes : ∀ gap space body, after = gap ++ ':' :: space ++ '"' :: body → Closes body := by
        intro gap space body split
        refine @closes_behind _ object.segmented
          (before ++ namePattern field ++ gap ++ ':' :: space) body ?_
        rw [find_split found, split]
        simp
      simp only [Option.map_some]
      constructor
      · rintro ⟨reason, refused⟩ ⟨other, gap, space, body, same, blank, inside⟩
        rw [found, Option.some.injEq, Prod.mk.injEq] at same
        obtain ⟨result, read⟩ := (closes gap space body same.2 []).1 inside
        rw [same.2, readField_string blank, ← List.append_nil body, read] at refused
        cases refused
      · intro hidden
        rcases readField_cases field after with ⟨gap, space, body, split, blank⟩ |
          ⟨gap, space, split, blank⟩ | ⟨refused, -⟩
        · have outside : '"' ∉ body := fun inside =>
            hidden ⟨before, gap, space, body, by rw [found, split], blank, inside⟩
          have read := (closes gap space body split []).2 outside []
          rw [List.append_nil] at read
          exact ⟨_, by rw [split, readField_string blank, read, readJson]⟩
        · have none : ∀ c ∈ ([] : Text).head?, isWhitespace c = false := by simp
          have read := readField_colon blank field none
          rw [List.append_nil] at read
          exact ⟨_, by rw [split, read]; rfl⟩
        · exact refused

end Absence

/-- A string member is returned, exactly if the reader knows the escapes of its value, whatever the
value is, if and only if it is named first; and where no member is a string of the name, nothing is
returned if and only if no string follows what looks like the name first. -/
theorem extractJsonField_top_level_iff (field : Text) (site : Site) (object : Object)
    (names : Denotes site.member.name field) :
    ((∀ pieces value, (denotes : Denotes pieces value) →
        (extractJsonField (site.fill denotes.legal).text field = .ok value ↔
          ∀ piece ∈ pieces, Known piece)) ↔ NamedFirst site field) ∧
      ((¬ object.HasString field → ∃ reason, extractJsonField object.text field = .error reason) ↔
        (¬ object.HasString field → ¬ ShowsString object.text field)) := by
  refine ⟨⟨fun every => ?_, fun named pieces value denotes => ?_⟩, ?_⟩
  · refine namedFirst_of_filler names fun c letter => (every _ _ (filler_denotes field letter)).mpr ?_
    intro piece member
    obtain ⟨d, -, rfl⟩ := List.mem_map.mp member
    trivial
  · rw [extract_namedFirst named denotes.legal, ← readPieces_iff denotes]
    exact ⟨Except.ok.inj, congrArg Except.ok⟩
  · rw [extract_refused_iff]

section Examples

def plainMember (name : Text) (plain : ∀ c ∈ name, 0x20 ≤ c.toNat ∧ c ∉ ['"', '\\']) {value : Text}
    (valid : IsValue value) : Member where
  lead := []
  name := name.map .plain
  gap := []
  space := []
  value
  trail := []
  blank := by simp [Blank]
  legal := (denotes_plain plain).legal
  valid

def responseMember (c : Char) (plain : ∀ d ∈ [c], 0x20 ≤ d.toNat ∧ d ∉ ['"', '\\']) : Member :=
  plainMember "response".toList (by decide) (.string (denotes_plain plain).legal)

def doneMember : Member :=
  plainMember "done".toList (by decide) (@IsValue.word "true".toList (by decide))

def compact (members : List Member) : Object := ⟨[], [], members, [], by simp [Blank]⟩

/-- A response behind another member. -/
def answerSite : Site where
  object := compact [doneMember, responseMember 'x' (by decide)]
  before := [doneMember]
  member := responseMember 'x' (by decide)
  after := []
  placed := rfl

theorem extractJsonField_top_level_answer :
    ((∀ pieces value, (denotes : Denotes pieces value) →
        (extractJsonField (answerSite.fill denotes.legal).text "response".toList = .ok value ↔
          ∀ piece ∈ pieces, Known piece)) ↔ NamedFirst answerSite "response".toList) ∧
      ((¬ (compact [doneMember]).HasString "response".toList →
          ∃ reason, extractJsonField (compact [doneMember]).text "response".toList = .error reason) ↔
        (¬ (compact [doneMember]).HasString "response".toList →
          ¬ ShowsString (compact [doneMember]).text "response".toList)) :=
  extractJsonField_top_level_iff _ answerSite (compact [doneMember]) (denotes_plain (by decide))

/-- A nested response in front of the one at the top. -/
def lookalike : Object :=
  compact [
    plainMember "a".toList (by decide) (.object (.last (responseMember 'x' (by decide)).blank
      (responseMember 'x' (by decide)).legal (responseMember 'x' (by decide)).valid) :
        IsValue ('{' :: (responseMember 'x' (by decide)).text ++ ['}'])),
    responseMember 'y' (by decide)]

/-- The nested response is returned in place of the one at the top. -/
theorem lookalike_found :
    extractJsonField lookalike.text "response".toList = .ok ['x'] ∧
      ¬ ∀ (object : Object) (field value : Text), (∃ member ∈ object.members,
        Denotes member.name field ∧ ∃ pieces, member.value = literal pieces ∧ Denotes pieces value) →
          extractJsonField object.text field = .ok value := by
  have found : find lookalike.text (namePattern "response".toList) =
      some ("\x7b\"a\":\x7b".toList, [] ++ ':' :: [] ++ '"' :: (content [.plain 'x'] ++ '"' ::
        "\x7d,\"response\":\"y\"\x7d".toList)) := by decide
  have legal : ∀ piece ∈ [Piece.plain 'x'], piece.Legal :=
    (denotes_plain (by decide : ∀ d ∈ ['x'], 0x20 ≤ d.toNat ∧ d ∉ ['"', '\\'])).legal
  have nested : extractJsonField lookalike.text "response".toList = .ok ['x'] := by
    rw [extractJsonField_eq, behind, found]
    simp only [Option.map_some]
    rw [readField_string (by simp), readJson_literal [] legal]
    rfl
  refine ⟨nested, fun every => ?_⟩
  have own := every lookalike "response".toList ['y'] ⟨responseMember 'y' (by decide),
    by simp [lookalike, compact], denotes_plain (by decide), _, rfl, denotes_plain (by decide)⟩
  rw [nested] at own
  cases own

end Examples

end LeanAntenna
