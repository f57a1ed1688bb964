import Antenna.Library.Json

/-!
JSON texts: the grammar of values with their white space, objects as lists of written members, and
the literals of a text with what stands between them.
-/

namespace Json

section Grammar

def Blank (text : Text) : Prop := ∀ c ∈ text, c ∈ [' ', '\t', '\n', '\r']

def AreDigits (text : Text) : Prop := text ≠ [] ∧ ∀ c ∈ text, c.isDigit = true

inductive IsNumber : Text → Prop where
  | intro {sign whole fraction exponent : Text} (signed : sign = [] ∨ sign = ['-'])
      (digits : AreDigits whole) (canonical : whole.head? = some '0' → whole = ['0'])
      (fractional : fraction = [] ∨ ∃ digits, AreDigits digits ∧ fraction = '.' :: digits)
      (scaled : exponent = [] ∨ ∃ mark sign digits, mark ∈ ['e', 'E'] ∧
        (sign = [] ∨ sign = ['+'] ∨ sign = ['-']) ∧ AreDigits digits ∧
          exponent = mark :: sign ++ digits) :
      IsNumber (sign ++ whole ++ fraction ++ exponent)

def memberText (lead : Text) (name : List Piece) (gap space value trail : Text) : Text :=
  lead ++ literal name ++ gap ++ ':' :: space ++ value ++ trail

mutual

inductive IsValue : Text → Prop where
  | word {text : Text} (known : text ∈ ["null".toList, "true".toList, "false".toList]) : IsValue text
  | number {text : Text} (number : IsNumber text) : IsValue text
  | string {pieces : List Piece} (legal : ∀ piece ∈ pieces, piece.Legal) : IsValue (literal pieces)
  | noElements {gap : Text} (blank : Blank gap) : IsValue ('[' :: gap ++ [']'])
  | array {text : Text} (elements : AreElements text) : IsValue ('[' :: text ++ [']'])
  | noMembers {gap : Text} (blank : Blank gap) : IsValue ('{' :: gap ++ ['}'])
  | object {text : Text} (members : AreMembers text) : IsValue ('{' :: text ++ ['}'])

inductive AreElements : Text → Prop where
  | last {lead value trail : Text} (blank : Blank (lead ++ trail)) (valid : IsValue value) :
      AreElements (lead ++ value ++ trail)
  | more {lead value trail rest : Text} (blank : Blank (lead ++ trail)) (valid : IsValue value)
      (others : AreElements rest) : AreElements (lead ++ value ++ trail ++ ',' :: rest)

inductive AreMembers : Text → Prop where
  | last {lead gap space value trail : Text} {name : List Piece}
      (blank : Blank (lead ++ gap ++ space ++ trail)) (legal : ∀ piece ∈ name, piece.Legal)
      (valid : IsValue value) : AreMembers (memberText lead name gap space value trail)
  | more {lead gap space value trail rest : Text} {name : List Piece}
      (blank : Blank (lead ++ gap ++ space ++ trail)) (legal : ∀ piece ∈ name, piece.Legal)
      (valid : IsValue value) (others : AreMembers rest) :
      AreMembers (memberText lead name gap space value trail ++ ',' :: rest)

end

/-- A member of an object as it is written. -/
structure Member where
  lead : Text
  name : List Piece
  gap : Text
  space : Text
  value : Text
  trail : Text
  blank : Blank (lead ++ gap ++ space ++ trail)
  legal : ∀ piece ∈ name, piece.Legal
  valid : IsValue value

def Member.text (member : Member) : Text :=
  memberText member.lead member.name member.gap member.space member.value member.trail

def joined : List Member → Text
  | [] => []
  | [member] => member.text
  | member :: members => member.text ++ ',' :: joined members

/-- A text that is an object. -/
structure Object where
  lead : Text
  inner : Text
  members : List Member
  trail : Text
  blank : Blank (lead ++ inner ++ trail)

def Object.text (object : Object) : Text :=
  object.lead ++ '{' :: object.inner ++ joined object.members ++ '}' :: object.trail

/-- A member of the object has the name and a string for its value. -/
def Object.HasString (object : Object) (field : Text) : Prop :=
  ∃ member ∈ object.members, Denotes member.name field ∧ ∃ pieces, member.value = literal pieces

end Grammar

section Segments

/-- Literals with text between them that has neither quotes nor backslashes. -/
inductive Segmented : Text → Prop where
  | nil : Segmented []
  | plain {c : Char} {rest : Text} (plain : c ∉ ['"', '\\']) (later : Segmented rest) :
      Segmented (c :: rest)
  | literal {pieces : List Piece} {rest : Text} (legal : ∀ piece ∈ pieces, piece.Legal)
      (later : Segmented rest) : Segmented (literal pieces ++ rest)

theorem Segmented.append {front back : Text} (first : Segmented front) (second : Segmented back) :
    Segmented (front ++ back) := by
  induction first with
  | nil => exact second
  | plain plain _ ih => exact .plain plain ih
  | literal legal _ ih =>
      rw [List.append_assoc]
      exact .literal legal ih

theorem segmented_plain {text : Text} (plain : ∀ c ∈ text, c ∉ ['"', '\\']) : Segmented text := by
  induction text with
  | nil => exact .nil
  | cons c text ih =>
      exact .plain (plain c List.mem_cons_self) (ih fun d member => plain d (List.mem_cons_of_mem c member))

theorem segmented_literal {pieces : List Piece} (legal : ∀ piece ∈ pieces, piece.Legal) :
    Segmented (literal pieces) := by
  rw [← List.append_nil (literal pieces)]
  exact .literal legal .nil

theorem segmented_blank {text : Text} (blank : Blank text) : Segmented text := by
  have plain : ∀ c ∈ [' ', '\t', '\n', '\r'], c ∉ ['"', '\\'] := by decide
  exact segmented_plain fun c member => plain c (blank c member)

theorem blank_append {front back : Text} : Blank (front ++ back) ↔ Blank front ∧ Blank back :=
  List.forall_mem_append

theorem isDigit_plain {c : Char} (digit : c.isDigit = true) : c ∉ ['"', '\\'] := by
  have refused : '"'.isDigit = false ∧ '\\'.isDigit = false := by decide
  intro listed
  rcases List.mem_pair.mp listed with rfl | rfl
  · rw [refused.1] at digit
    cases digit
  · rw [refused.2] at digit
    cases digit

theorem segmented_digits {text : Text} (digits : AreDigits text) : Segmented text :=
  segmented_plain fun c member => isDigit_plain (digits.2 c member)

theorem segmented_number {text : Text} (number : IsNumber text) : Segmented text := by
  obtain ⟨signed, digits, -, fractional, scaled⟩ := number
  refine ((Segmented.append ?_ (segmented_digits digits)).append ?_).append ?_
  · rcases signed with rfl | rfl <;> exact segmented_plain (by decide)
  · rcases fractional with rfl | ⟨places, digits, rfl⟩
    · exact .nil
    · exact .plain (by decide) (segmented_digits digits)
  · rcases scaled with rfl | ⟨mark, sign, places, marked, signed, digits, rfl⟩
    · exact .nil
    · have plain : ∀ mark ∈ ['e', 'E'], mark ∉ ['"', '\\'] := by decide
      refine .plain (plain mark marked) (Segmented.append ?_ (segmented_digits digits))
      rcases signed with rfl | rfl | rfl <;> exact segmented_plain (by decide)

theorem segmented_memberText {lead gap space value trail : Text} {name : List Piece}
    (blank : Blank (lead ++ gap ++ space ++ trail)) (legal : ∀ piece ∈ name, piece.Legal)
    (valid : Segmented value) : Segmented (memberText lead name gap space value trail) := by
  simp only [blank_append] at blank
  obtain ⟨⟨⟨lead, gap⟩, space⟩, trail⟩ := blank
  have front := ((segmented_blank lead).append (segmented_literal legal)).append (segmented_blank gap)
  have colon := front.append (.plain (by decide : ':' ∉ ['"', '\\']) (segmented_blank space))
  exact (colon.append valid).append (segmented_blank trail)

mutual

theorem IsValue.segmented {text : Text} : IsValue text → Segmented text
  | .word known => by
      have plain : ∀ word ∈ ["null".toList, "true".toList, "false".toList],
          ∀ c ∈ word, c ∉ ['"', '\\'] := by decide
      exact segmented_plain (plain text known)
  | .number number => segmented_number number
  | .string legal => segmented_literal legal
  | .noElements blank => .plain (by decide) ((segmented_blank blank).append (segmented_plain (by decide)))
  | .array elements => .plain (by decide) (elements.segmented.append (segmented_plain (by decide)))
  | .noMembers blank => .plain (by decide) ((segmented_blank blank).append (segmented_plain (by decide)))
  | .object members => .plain (by decide) (members.segmented.append (segmented_plain (by decide)))

theorem AreElements.segmented {text : Text} : AreElements text → Segmented text
  | .last blank valid => by
      obtain ⟨lead, trail⟩ := blank_append.mp blank
      exact ((segmented_blank lead).append valid.segmented).append (segmented_blank trail)
  | .more blank valid others => by
      obtain ⟨lead, trail⟩ := blank_append.mp blank
      have first := ((segmented_blank lead).append valid.segmented).append (segmented_blank trail)
      exact first.append (.plain (by decide) others.segmented)

theorem AreMembers.segmented {text : Text} : AreMembers text → Segmented text
  | .last blank legal valid => segmented_memberText blank legal valid.segmented
  | .more blank legal valid others =>
      (segmented_memberText blank legal valid.segmented).append (.plain (by decide) others.segmented)

end

theorem Member.segmented (member : Member) : Segmented member.text :=
  segmented_memberText member.blank member.legal member.valid.segmented

theorem segmented_joined (members : List Member) : Segmented (joined members) := by
  fun_induction joined members with
  | case1 => exact .nil
  | case2 member => exact member.segmented
  | case3 member members _ ih => exact member.segmented.append (.plain (by decide) ih)

theorem Object.segmented (object : Object) : Segmented object.text := by
  have blank := object.blank
  simp only [blank_append] at blank
  obtain ⟨⟨lead, inner⟩, trail⟩ := blank
  have front := (segmented_blank lead).append (.plain (by decide : '{' ∉ ['"', '\\']) (segmented_blank inner))
  exact (front.append (segmented_joined object.members)).append (.plain (by decide) (segmented_blank trail))

end Segments

section Sites

/-- An object with the place of one string member, whose value can be replaced. -/
structure Site where
  object : Object
  before : List Member
  member : Member
  after : List Member
  placed : object.members = before ++ member :: after

def Site.fill (site : Site) {pieces : List Piece} (legal : ∀ piece ∈ pieces, piece.Legal) : Object :=
  { site.object with
    members := site.before ++
      { site.member with value := literal pieces, valid := .string legal } :: site.after }

/-- What stands in front of the member's name. -/
def Site.front (site : Site) : Text :=
  site.object.lead ++ '{' :: site.object.inner ++ site.before.flatMap (fun member => member.text ++ [',']) ++
    site.member.lead

/-- What stands behind the member's value. -/
def Site.back (site : Site) : Text :=
  site.member.trail ++ site.after.flatMap (fun member => ',' :: member.text) ++ '}' :: site.object.trail

theorem joined_append (before : List Member) (member : Member) (after : List Member) :
    joined (before ++ member :: after) =
      before.flatMap (fun member => member.text ++ [',']) ++ member.text ++
        after.flatMap (fun member => ',' :: member.text) := by
  induction before with
  | nil =>
      induction after generalizing member with
      | nil => simp [joined]
      | cons next after ih =>
          have later := ih next
          simp only [List.nil_append, List.flatMap_nil] at later ⊢
          rw [joined, later]
          · simp
          · simp
  | cons first before ih =>
      rw [List.cons_append, joined, ih]
      · simp
      · simp

theorem Site.text_fill (site : Site) {pieces : List Piece} (legal : ∀ piece ∈ pieces, piece.Legal) :
    (site.fill legal).text =
      site.front ++ (literal site.member.name ++ (site.member.gap ++ ':' ::
        (site.member.space ++ (literal pieces ++ site.back)))) := by
  unfold Site.fill Object.text Site.front Site.back
  rw [joined_append]
  unfold Member.text memberText
  simp only [List.append_assoc, List.cons_append]

/-- The text in front of the value consists of literals and what stands between them. -/
theorem Site.segmented (site : Site) :
    Segmented (site.front ++ (literal site.member.name ++ (site.member.gap ++ ':' :: site.member.space))) := by
  have blank := site.object.blank
  have own := site.member.blank
  simp only [blank_append] at blank own
  obtain ⟨⟨lead, inner⟩, -⟩ := blank
  obtain ⟨⟨⟨ownLead, gap⟩, space⟩, -⟩ := own
  have members : Segmented (site.before.flatMap fun member => member.text ++ [',']) := by
    generalize site.before = before
    induction before with
    | nil => exact .nil
    | cons first before ih =>
        rw [List.flatMap_cons]
        exact (first.segmented.append (segmented_plain (by decide))).append ih
  have front := (segmented_blank lead).append (.plain (by decide : '{' ∉ ['"', '\\']) (segmented_blank inner))
  refine ((front.append members).append (segmented_blank ownLead)).append ?_
  exact (segmented_literal site.member.legal).append
    ((segmented_blank gap).append (.plain (by decide) (segmented_blank space)))

end Sites

end Json
