import Antenna.Library.JsonText

/-!
The values that JSON texts denote, with the members of an object in their order, and texts without
white space between their tokens.
-/

namespace Json

/-- Numbers are kept as they are spelled. -/
inductive Value where
  | null
  | boolean (value : Bool)
  | number (spelled : Text)
  | string (value : Text)
  | array (elements : List Value)
  | object (members : List (Text × Value))

mutual

inductive Reads : Text → Value → Prop where
  | null : Reads "null".toList .null
  | boolean (value : Bool) : Reads (toString value).toList (.boolean value)
  | number {text : Text} (number : IsNumber text) : Reads text (.number text)
  | string {pieces : List Piece} {value : Text} (denotes : Denotes pieces value) :
      Reads (literal pieces) (.string value)
  | noElements {gap : Text} (blank : Blank gap) : Reads ('[' :: gap ++ [']']) (.array [])
  | array {text : Text} {elements : List Value} (inside : ReadsElements text elements) :
      Reads ('[' :: text ++ [']']) (.array elements)
  | noMembers {gap : Text} (blank : Blank gap) : Reads ('{' :: gap ++ ['}']) (.object [])
  | object {text : Text} {members : List (Text × Value)} (inside : ReadsMembers text members) :
      Reads ('{' :: text ++ ['}']) (.object members)

inductive ReadsElements : Text → List Value → Prop where
  | last {lead text trail : Text} {value : Value} (blank : Blank (lead ++ trail))
      (reads : Reads text value) : ReadsElements (lead ++ text ++ trail) [value]
  | more {lead text trail rest : Text} {value : Value} {elements : List Value}
      (blank : Blank (lead ++ trail)) (reads : Reads text value)
      (later : ReadsElements rest elements) :
      ReadsElements (lead ++ text ++ trail ++ ',' :: rest) (value :: elements)

inductive ReadsMembers : Text → List (Text × Value) → Prop where
  | last {lead gap space text trail name : Text} {pieces : List Piece} {value : Value}
      (blank : Blank (lead ++ gap ++ space ++ trail)) (named : Denotes pieces name)
      (reads : Reads text value) :
      ReadsMembers (memberText lead pieces gap space text trail) [(name, value)]
  | more {lead gap space text trail rest name : Text} {pieces : List Piece} {value : Value}
      {members : List (Text × Value)} (blank : Blank (lead ++ gap ++ space ++ trail))
      (named : Denotes pieces name) (reads : Reads text value)
      (later : ReadsMembers rest members) :
      ReadsMembers (memberText lead pieces gap space text trail ++ ',' :: rest)
        ((name, value) :: members)

end

/-- The whole text is one value with white space around it. -/
def Document (text : Text) (value : Value) : Prop :=
  ∃ lead inner trail, Blank (lead ++ trail) ∧ text = lead ++ inner ++ trail ∧ Reads inner value

/-- Characters that stand for themselves in a literal. -/
def Bare (text : Text) : Prop := ∀ c ∈ text, 0x20 ≤ c.toNat ∧ c ∉ ['"', '\\']

instance (text : Text) : Decidable (Bare text) := inferInstanceAs (Decidable (∀ c ∈ text, _))

section Compact

def quoted (text : Text) : Text := '"' :: text ++ ['"']

def bareMember (name text : Text) : Text := quoted name ++ ':' :: text

theorem blank_nil : Blank [] := by simp [Blank]

theorem Reads.document {text : Text} {value : Value} (reads : Reads text value) :
    Document text value :=
  ⟨[], text, [], blank_nil, by simp, reads⟩

theorem literal_bare (text : Text) : literal (text.map .plain) = quoted text := by
  rw [literal, content_plain, quoted]

theorem reads_bare {text : Text} (bare : Bare text) : Reads (quoted text) (.string text) := by
  rw [← literal_bare]
  exact .string (denotes_plain bare)

variable {name text : Text} {value : Value}

theorem memberText_compact (name text : Text) :
    memberText [] (name.map .plain) [] [] text [] = bareMember name text := by
  rw [memberText, literal_bare, bareMember]
  simp

theorem readsMembers_last (bare : Bare name) (reads : Reads text value) :
    ReadsMembers (bareMember name text) [(name, value)] := by
  rw [← memberText_compact]
  exact .last blank_nil (denotes_plain bare) reads

theorem readsMembers_more {rest : Text} {members : List (Text × Value)} (bare : Bare name)
    (reads : Reads text value) (later : ReadsMembers rest members) :
    ReadsMembers (bareMember name text ++ ',' :: rest) ((name, value) :: members) := by
  rw [← memberText_compact]
  exact .more blank_nil (denotes_plain bare) reads later

theorem readsElements_last (reads : Reads text value) : ReadsElements text [value] := by
  have whole := @ReadsElements.last [] text [] value blank_nil reads
  simpa using whole

theorem readsElements_more {rest : Text} {elements : List Value} (reads : Reads text value)
    (later : ReadsElements rest elements) :
    ReadsElements (text ++ ',' :: rest) (value :: elements) := by
  have whole := @ReadsElements.more [] text [] rest value elements blank_nil reads later
  simpa using whole

/-- A natural number other than zero is written without a zero in front. -/
theorem toDigits_canonical (value : Nat) (zero : (Nat.toDigits 10 value).head? = some '0') :
    Nat.toDigits 10 value = ['0'] := by
  induction value using Nat.strongRecOn with
  | ind value ih =>
      by_cases small : value < 10
      · rw [Nat.toDigits_of_lt_base small] at zero ⊢
        rw [List.head?_cons, Option.some.injEq] at zero
        rw [zero]
      · have split := @Nat.toDigits_of_base_le 10 value (by decide) (by omega)
        rw [split, List.head?_append_of_ne_nil _ Nat.toDigits_ne_nil] at zero
        have front := ih (value / 10) (by omega) zero
        have back := congrArg (fun digits => Nat.ofDigitChars 10 digits 0) front
        simp only [Nat.ofDigitChars_ten_toDigits] at back
        have vanishes : value / 10 = 0 := back
        omega

theorem isNumber_toDigits (value : Nat) : IsNumber (Nat.toDigits 10 value) := by
  have digit : ∀ c ∈ Nat.toDigits 10 value, c.isDigit = true := fun c member =>
    Nat.isDigit_of_mem_toDigits (by decide) (by decide) member
  have whole := @IsNumber.intro [] (Nat.toDigits 10 value) [] [] (Or.inl rfl)
    ⟨Nat.toDigits_ne_nil, digit⟩ (toDigits_canonical value) (Or.inl rfl) (Or.inl rfl)
  simpa using whole

end Compact

section Members

variable {pieces : List Piece} {value : Text}

/-- If the text itself stands where its literal closes, it is the content of the literal. -/
theorem content_eq (denotes : Denotes pieces value) {behind rest : Text}
    (same : content pieces ++ '"' :: behind = value ++ '"' :: rest) : content pieces = value := by
  obtain ⟨longer, quotes⟩ := content_sizes denotes
  rcases List.append_eq_append_iff.mp same with ⟨more, split, -⟩ | ⟨more, split, closes⟩
  · have size := congrArg List.length split
    rw [List.length_append] at size
    have empty : more = [] := List.length_eq_zero_iff.mp (by omega)
    rw [split, empty, List.append_nil]
  · cases more with
    | nil => rw [split, List.append_nil]
    | cons c more =>
        rw [List.cons_append] at closes
        obtain ⟨rfl, -⟩ := List.cons.inj closes
        rw [split, List.count_append, List.count_cons_self] at quotes
        omega

theorem bare_of_content (denotes : Denotes pieces value) (same : content pieces = value) :
    Bare value := by
  induction pieces generalizing value with
  | nil =>
      rw [← same]
      simp [Bare, content]
  | cons piece pieces ih =>
      obtain ⟨c, rest, rfl, legal, char, later⟩ := denotes_cons.mp denotes
      have longer := (content_sizes later).1
      have sizes := congrArg List.length same
      rw [content, List.flatMap_cons, ← content, List.length_append, List.length_cons] at sizes
      have one : piece.text.length ≤ 1 := by omega
      cases piece with
      | plain d =>
          cases char
          have behind := (List.cons.inj same).2
          intro other member
          rcases List.mem_cons.mp member with rfl | inRest
          · exact legal
          · exact ih later behind other inRest
      | escape kind => simp [Piece.text] at one
      | unicode digits => simp [Piece.text] at one
      | pair high low => simp [Piece.text] at one

/-- The first member of an object, with what stands in front of it and behind it. -/
theorem Document.first_member {text name : Text} {value : Value} {members : List (Text × Value)}
    (document : Document text (.object ((name, value) :: members))) :
    ∃ lead pieces gap space inner behind, Blank (lead ++ gap ++ space) ∧ Denotes pieces name ∧
      Reads inner value ∧ ∃ before, Blank before ∧
        text = before ++ '{' :: lead ++ literal pieces ++ gap ++ ':' :: space ++ inner ++ behind := by
  obtain ⟨before, inner, after, blank, rfl, reads⟩ := document
  have first := (blank_append.mp blank).1
  cases reads with
  | object inside =>
      cases inside with
      | @last lead gap space text trail _ pieces _ blanks named reads =>
          exact ⟨lead, pieces, gap, space, text, trail ++ '}' :: after, (blank_append.mp blanks).1,
            named, reads, before, first, by simp [memberText]⟩
      | @more lead gap space text trail rest _ pieces _ _ blanks named reads later =>
          exact ⟨lead, pieces, gap, space, text, trail ++ ',' :: rest ++ '}' :: after,
            (blank_append.mp blanks).1, named, reads, before, first, by simp [memberText]⟩

theorem blank_front {blank front rest : Text} {c : Char} (spaces : Blank blank)
    (visible : c ∉ [' ', '\t', '\n', '\r']) (same : blank ++ front = c :: rest) :
    blank = [] ∧ front = c :: rest := by
  cases blank with
  | nil => exact ⟨rfl, same⟩
  | cons d blank =>
      obtain ⟨rfl, -⟩ := List.cons.inj same
      exact absurd (spaces d List.mem_cons_self) visible

/-- A text that is put between quotes as it is denotes itself only if it needs no escape. -/
theorem Document.bare_of_first {name raw rest : Text} {members : List (Text × Value)}
    (document : Document ('{' :: bareMember name (quoted raw) ++ rest)
      (.object ((name, .string raw) :: members))) : Bare raw := by
  obtain ⟨lead, pieces, gap, space, inner, behind, blank, named, reads, before, first, text⟩ :=
    document.first_member
  obtain ⟨blank, third⟩ := blank_append.mp blank
  obtain ⟨leading, second⟩ := blank_append.mp blank
  have start : before ++ ('{' :: (lead ++ (literal pieces ++ (gap ++ ':' :: (space ++ (inner ++ behind)))))) =
      '{' :: ('"' :: (name ++ '"' :: ':' :: '"' :: (raw ++ '"' :: rest))) := by
    simp [bareMember, quoted] at text
    simp [text]
  obtain ⟨-, opened⟩ := blank_front first (by decide) start
  obtain ⟨-, literalFirst⟩ := blank_front leading (by decide) (List.cons.inj opened).2
  have closes : content pieces ++ '"' :: (gap ++ ':' :: (space ++ (inner ++ behind))) =
      name ++ '"' :: ':' :: '"' :: (raw ++ '"' :: rest) := by
    simpa [literal] using literalFirst
  rw [content_eq named closes] at closes
  have colon := (List.cons.inj (List.append_cancel_left closes)).2
  obtain ⟨-, colonFirst⟩ := blank_front second (by decide) colon
  obtain ⟨-, value⟩ := blank_front third (by decide) (List.cons.inj colonFirst).2
  cases reads with
  | string denotes =>
      rename_i written
      have ends : content written ++ '"' :: behind = raw ++ '"' :: rest := by
        simpa [literal] using value
      exact bare_of_content denotes (content_eq denotes ends)

end Members

end Json
