import Mathlib.Data.List.DropRight
import Mathlib.Data.List.Infix
import Mathlib.Data.Nat.Find

/-! Substring search, trimming and splitting of text, on the list of its characters. -/

abbrev Text := List Char

-- a bounded search goes through its list, also where all characters could be gone through
attribute [instance (2000)] List.decidableBAll List.decidableBEx Option.decidableForallMem
  Option.decidableExistsMem

namespace Text

instance lawfulText : LawfulBEq Text := inferInstance

/-- The characters of the Unicode property `White_Space`. -/
def isWhitespace (c : Char) : Bool :=
  let code := c.toNat
  (9 ≤ code && code ≤ 13) || code == 0x20 || code == 0x85 || code == 0xA0 || code == 0x1680 ||
    (0x2000 ≤ code && code ≤ 0x200A) || code == 0x2028 || code == 0x2029 || code == 0x202F ||
    code == 0x205F || code == 0x3000

def trimStart (text : Text) : Text := text.dropWhile isWhitespace

def trimEnd (text : Text) : Text := text.rdropWhile isWhitespace

def trim (text : Text) : Text := trimEnd (trimStart text)

/-- The text before and after the first occurrence of `pattern`. -/
def find (text pattern : Text) : Option (Text × Text) := text.dropInfix? pattern

/-- What stands behind the first occurrence of `pattern`. -/
def behind (text pattern : Text) : Option Text := (find text pattern).map Prod.snd

def contains (text pattern : Text) : Bool := (find text pattern).isSome

/-- What stands before the first of the delimiters, or the whole text. -/
def firstPiece (delimiters text : Text) : Text := text.takeWhile (· ∉ delimiters)

def splitOnce (separator : Char) (text : Text) : Option (Text × Text) := find text [separator]

/-- Goes on with the replacements behind the characters that a replaced occurrence still covers. -/
def replaceFrom (pattern replacement : Text) : Nat → Text → Text
  | _, [] => []
  | covered + 1, _ :: rest => replaceFrom pattern replacement covered rest
  | 0, c :: rest =>
      if pattern <+: c :: rest then
        replacement ++ replaceFrom pattern replacement (pattern.length - 1) rest
      else c :: replaceFrom pattern replacement 0 rest

/-- Replaces all occurrences of a pattern, from the left, that do not overlap. -/
def replaceAll (pattern replacement text : Text) : Text := replaceFrom pattern replacement 0 text

def stripReturn (line : Text) : Text :=
  if line.getLast? = some '\r' then line.dropLast else line

/-- The lines of the text that `line` begins. -/
def linesFrom (line : Text) : Text → List Text
  | [] => if line = [] then [] else [line]
  | c :: rest =>
      if c = '\n' then stripReturn line :: linesFrom [] rest else linesFrom (line ++ [c]) rest

/-- The lines without their ends, LF or CR LF; the last line may have none. -/
def lines (text : Text) : List Text := linesFrom [] text

def prepend (front : Text) : Text × Text → Text × Text
  | (before, after) => (front ++ before, after)

@[simp] theorem prepend_mk (front before after : Text) :
    prepend front (before, after) = (front ++ before, after) := rfl

section Search

variable {text pattern before after : Text}

theorem find_first (found : find text pattern = some (before, after)) :
    text = before ++ pattern ++ after ∧
      ∀ earlier later, text = earlier ++ pattern ++ later → before.length ≤ earlier.length := by
  unfold find at found
  rw [List.dropInfix?_eq_some_iff] at found
  obtain ⟨⟨same, split, equal⟩, least⟩ := found
  rw [beq_iff_eq] at equal
  subst equal
  exact ⟨split, fun earlier later found => least earlier same later found (by simp)⟩

theorem find_of_first (split : text = before ++ pattern ++ after)
    (least : ∀ earlier later, text = earlier ++ pattern ++ later → before.length ≤ earlier.length) :
    find text pattern = some (before, after) := by
  unfold find
  rw [List.dropInfix?_eq_some_iff]
  refine ⟨⟨pattern, split, by simp⟩, ?_⟩
  intro earlier same later found equal
  rw [beq_iff_eq] at equal
  subst equal
  exact least earlier later found

theorem find_split (found : find text pattern = some (before, after)) :
    text = before ++ pattern ++ after :=
  (find_first found).1

theorem find_eq_none_iff : find text pattern = none ↔ ¬ pattern <:+: text := by
  constructor
  · rintro missing ⟨start, finish, split⟩
    have somewhere : ∃ size, ∃ earlier later,
        text = earlier ++ pattern ++ later ∧ earlier.length = size :=
      ⟨start.length, start, finish, split.symm, rfl⟩
    classical
    obtain ⟨earlier, later, found, size⟩ := Nat.find_spec somewhere
    have first : find text pattern = some (earlier, later) := by
      refine find_of_first found fun other rest again => ?_
      rw [size]
      exact Nat.find_min' somewhere ⟨other, rest, again, rfl⟩
    rw [first] at missing
    contradiction
  · intro absent
    cases found : find text pattern with
    | none => rfl
    | some parts => exact absurd ⟨parts.1, parts.2, (find_split found).symm⟩ absent

theorem contains_iff : contains text pattern = true ↔ pattern <:+: text := by
  rw [contains, ← Option.not_isNone, Bool.not_eq_true', ← Bool.not_eq_true, Option.isNone_iff_eq_none,
    find_eq_none_iff, not_not]

theorem replaceFrom_cons (pattern replacement rest : Text) (c : Char) :
    replaceFrom pattern replacement 0 (c :: rest) = if pattern <+: c :: rest then
      replacement ++ replaceFrom pattern replacement (pattern.length - 1) rest
    else c :: replaceFrom pattern replacement 0 rest := rfl

theorem replaceAll_absent {replacement : Text} (absent : ¬ pattern <:+: text) :
    replaceAll pattern replacement text = text := by
  unfold replaceAll
  induction text with
  | nil => rfl
  | cons c rest ih =>
      rw [replaceFrom_cons, if_neg fun here => absent here.isInfix,
        ih fun inside => absent (inside.trans (List.suffix_cons c rest).isInfix)]

theorem replaceFrom_covered {replacement : Text} {covered : Nat} (short : text.length ≤ covered) :
    replaceFrom pattern replacement covered text = [] := by
  induction text generalizing covered with
  | nil => rfl
  | cons c rest ih =>
      cases covered with
      | zero => simp at short
      | succ covered => exact ih (by simpa using short)

theorem replaceAll_self {replacement : Text} (nonempty : pattern ≠ []) :
    replaceAll pattern replacement pattern = replacement := by
  cases pattern with
  | nil => exact absurd rfl nonempty
  | cons c rest =>
      rw [replaceAll, replaceFrom_cons, if_pos List.prefix_rfl, replaceFrom_covered (by simp),
        List.append_nil]

theorem find_nil (nonempty : pattern ≠ []) : find [] pattern = none := by
  simp [find_eq_none_iff, nonempty]

theorem find_here (pattern rest : Text) : find (pattern ++ rest) pattern = some ([], rest) :=
  find_of_first (by simp) (by simp)

theorem find_later (c : Char) (elsewhere : ¬ pattern <+: c :: text) :
    find (c :: text) pattern = (find text pattern).map (prepend [c]) := by
  have shift : ∀ earlier later, c :: text = earlier ++ pattern ++ later →
      ∃ rest, earlier = c :: rest ∧ text = rest ++ pattern ++ later := by
    intro earlier later split
    cases earlier with
    | nil => exact absurd ⟨later, by simpa using split.symm⟩ elsewhere
    | cons first rest =>
        simp only [List.cons_append, List.cons.injEq] at split
        exact ⟨rest, by rw [split.1], split.2⟩
  cases found : find text pattern with
  | none =>
      rw [Option.map_none, find_eq_none_iff]
      rintro ⟨earlier, later, split⟩
      obtain ⟨rest, -, inside⟩ := shift earlier later split.symm
      exact find_eq_none_iff.mp found ⟨rest, later, inside.symm⟩
  | some parts =>
      obtain ⟨before, after⟩ := parts
      obtain ⟨split, least⟩ := find_first found
      refine find_of_first (by simp [split]) ?_
      intro earlier later again
      obtain ⟨rest, rfl, inside⟩ := shift earlier later again
      have bound := least rest later inside
      simp only [List.singleton_append, List.length_cons]
      omega

/-- A prefix cannot reach over a character that it does not hold. -/
theorem prefix_barrier (left : Text) {right : Text} {barrier : Char} (absent : barrier ∉ pattern) :
    pattern <+: left ++ barrier :: right ↔ pattern <+: left := by
  constructor
  · intro reaches
    by_cases long : left.length < pattern.length
    · have covers : left ++ [barrier] <+: pattern := by
        refine List.prefix_of_prefix_length_le ⟨right, by simp⟩ reaches ?_
        simp only [List.length_append, List.length_singleton]
        omega
      exact absurd (covers.subset (by simp)) absent
    · exact List.prefix_of_prefix_length_le reaches (List.prefix_append _ _) (by omega)
  · exact fun short => short.trans (List.prefix_append _ _)

/-- The search goes on behind a character the pattern does not hold as if the text began there. -/
theorem find_barrier {left right : Text} {barrier : Char} (absent : barrier ∉ pattern)
    (nonempty : pattern ≠ []) :
    find (left ++ barrier :: right) pattern =
      match find left pattern with
      | some (before, after) => some (before, after ++ barrier :: right)
      | none => (find right pattern).map (prepend (left ++ [barrier])) := by
  induction left with
  | nil =>
      have elsewhere : ¬ pattern <+: barrier :: right := by
        intro reaches
        have short := (prefix_barrier [] absent).mp reaches
        exact nonempty (List.prefix_nil.mp short)
      rw [find_nil nonempty, List.nil_append, find_later barrier elsewhere]
      rfl
  | cons c left ih =>
      by_cases here : pattern <+: c :: left
      · obtain ⟨rest, split⟩ := here
        rw [← split, find_here, List.append_assoc, find_here]
      · have still : ¬ pattern <+: c :: (left ++ barrier :: right) := by
          intro reaches
          exact here ((prefix_barrier (c :: left) absent).mp reaches)
        rw [List.cons_append, find_later c still, find_later c here, ih]
        cases find left pattern with
        | some parts => rfl
        | none =>
            simp only [Option.map_none, Option.map_map]
            congr 1

theorem infix_barrier {left right : Text} {barrier : Char} (absent : barrier ∉ pattern)
    (nonempty : pattern ≠ []) :
    pattern <:+: left ++ barrier :: right ↔ pattern <:+: left ∨ pattern <:+: right := by
  rw [← contains_iff, ← contains_iff, ← contains_iff, contains, contains, contains,
    find_barrier absent nonempty]
  cases find left pattern with
  | some parts => simp
  | none => simp

/-- A pattern that ends in its only separator is found where a word of the text ends in it. -/
theorem find_word {word name rest : Text} {separator : Char} (plain : separator ∉ word)
    (single : separator ∉ name) :
    find (word ++ separator :: rest) (name ++ [separator]) =
      if name <:+ word then some (word.take (word.length - name.length), rest)
      else (find rest (name ++ [separator])).map (prepend (word ++ [separator])) := by
  have whole : ∀ text, separator ∉ text →
      (name ++ [separator] <+: text ++ separator :: rest ↔ name = text) := by
    intro text free
    constructor
    · rintro ⟨tail, split⟩
      rw [List.append_assoc] at split
      have ends := congrArg (List.takeWhile fun c => c != separator) split
      have every : ∀ part : Text, separator ∉ part → ∀ more,
          (part ++ separator :: more).takeWhile (fun c => c != separator) = part := by
        intro part clean more
        rw [List.takeWhile_append_of_pos]
        · simp
        · intro c member
          simpa using fun same : c = separator => clean (same ▸ member)
      rw [List.singleton_append, every name single, every text free] at ends
      exact ends
    · rintro rfl
      exact ⟨rest, by simp⟩
  induction word with
  | nil =>
      by_cases empty : name = []
      · subst empty
        simpa using find_here [separator] rest
      · have elsewhere : ¬ name ++ [separator] <+: separator :: rest := by
          intro reaches
          exact empty ((whole [] (by simp)).mp reaches)
        rw [List.nil_append, find_later separator elsewhere, if_neg (by simpa using empty)]
        rfl
  | cons c word ih =>
      have clean : separator ∉ word := fun member => plain (List.mem_cons_of_mem c member)
      by_cases same : name = c :: word
      · subst same
        have here := find_here (c :: word ++ [separator]) rest
        rw [List.append_assoc, List.singleton_append] at here
        rw [if_pos List.suffix_rfl, here]
        simp
      · have elsewhere : ¬ name ++ [separator] <+: c :: (word ++ separator :: rest) := by
          intro reaches
          exact same ((whole (c :: word) plain).mp reaches)
        rw [List.cons_append, find_later c elsewhere, ih clean]
        by_cases inside : name <:+ word
        · have size := inside.length_le
          rw [if_pos inside, if_pos (List.suffix_cons_iff.mpr (Or.inr inside))]
          rw [Option.map_some, prepend_mk, List.length_cons,
            show word.length + 1 - name.length = word.length - name.length + 1 by omega]
          rfl
        · rw [if_neg inside, if_neg]
          · rw [Option.map_map]
            congr 1
          · intro reaches
            exact (List.suffix_cons_iff.mp reaches).elim same inside

/-- A marked name is found where it stands if the text before does not hold it. -/
theorem find_marked {before name rest : Text} {separator : Char} (single : separator ∉ name)
    (fresh : ¬ name ++ [separator] <:+: before) :
    find (before ++ (name ++ [separator]) ++ rest) (name ++ [separator]) =
      some (before, rest) := by
  refine find_of_first rfl ?_
  intro earlier later again
  by_contra short
  have reaches : earlier ++ (name ++ [separator]) <+: before ++ name := by
    apply List.prefix_of_prefix_length_le ⟨later, again.symm⟩
    · exact ⟨separator :: rest, by simp⟩
    · simp only [List.length_append, List.length_singleton]
      omega
  by_cases within : (earlier ++ (name ++ [separator])).length ≤ before.length
  · have inside := List.prefix_of_prefix_length_le reaches (List.prefix_append _ _) within
    exact fresh ((List.suffix_append _ _).isInfix.trans inside.isInfix)
  · -- the mark of the earlier place would be a character of the name
    have covers : before <+: earlier ++ (name ++ [separator]) :=
      List.prefix_of_prefix_length_le (List.prefix_append _ _) reaches (by omega)
    obtain ⟨piece, split⟩ := covers
    have inName : piece <+: name := by
      rw [← split] at reaches
      exact (List.prefix_append_right_inj before).mp reaches
    have nonempty : piece ≠ [] := by
      rintro rfl
      rw [List.append_nil] at split
      exact within (by rw [split])
    have last := congrArg List.getLast? split
    rw [List.getLast?_append_of_ne_nil _ nonempty, ← List.append_assoc, List.getLast?_concat] at last
    exact single (inName.subset (List.mem_of_getLast? last))

theorem behind_prepend {front : Text} {found : Option (Text × Text)} :
    (found.map (prepend front)).map Prod.snd = found.map Prod.snd := by
  cases found <;> rfl

theorem behind_barrier {left right : Text} {barrier : Char} (absent : barrier ∉ pattern)
    (nonempty : pattern ≠ []) :
    behind (left ++ barrier :: right) pattern =
      match behind left pattern with
      | some after => some (after ++ barrier :: right)
      | none => behind right pattern := by
  unfold behind
  rw [find_barrier absent nonempty]
  cases find left pattern with
  | some parts => rfl
  | none => exact behind_prepend

theorem behind_word {word name rest : Text} {separator : Char} (plain : separator ∉ word)
    (single : separator ∉ name) :
    behind (word ++ separator :: rest) (name ++ [separator]) =
      if name <:+ word then some rest else behind rest (name ++ [separator]) := by
  unfold behind
  rw [find_word plain single]
  split
  · rfl
  · exact behind_prepend

/-- A pattern between two marks is found in front of a long gap without marks or behind it. -/
theorem find_across {mark : Char} {inner gap : Text} (clear : mark ∉ gap)
    (long : inner.length < gap.length) (left right : Text) :
    find (left ++ (gap ++ right)) (mark :: inner ++ [mark]) =
      match find left (mark :: inner ++ [mark]) with
      | some (before, after) => some (before, after ++ (gap ++ right))
      | none => (find right (mark :: inner ++ [mark])).map (prepend (left ++ gap)) := by
  induction left with
  | nil =>
      have behind : find (gap ++ right) (mark :: inner ++ [mark]) =
          (find right (mark :: inner ++ [mark])).map (prepend gap) := by
        clear long
        induction gap with
        | nil =>
            rw [List.nil_append]
            cases find right (mark :: inner ++ [mark]) <;> rfl
        | cons c gap ih =>
            rw [List.mem_cons, not_or] at clear
            have elsewhere : ¬ mark :: inner ++ [mark] <+: c :: (gap ++ right) := fun starts =>
              clear.1 (List.cons_prefix_cons.mp starts).1
            rw [List.cons_append, find_later c elsewhere, ih clear.2, Option.map_map]
            rfl
      rw [find_nil (by simp)]
      exact behind
  | cons c left ih =>
      by_cases here : mark :: inner ++ [mark] <+: c :: left
      · obtain ⟨after, whole⟩ := here
        rw [← whole, find_here, List.append_assoc, find_here]
      · have elsewhere : ¬ mark :: inner ++ [mark] <+: c :: (left ++ (gap ++ right)) := by
          rintro ⟨after, whole⟩
          rw [← List.cons_append] at whole
          rcases List.append_eq_append_iff.mp whole with ⟨rest, split, -⟩ | ⟨rest, split, tail⟩
          · exact here ⟨rest, split.symm⟩
          · rcases List.eq_nil_or_concat rest with rfl | ⟨front, last, rfl⟩
            · exact here ⟨[], by simpa using split⟩
            · rw [List.concat_eq_append] at split tail
              rw [← List.append_assoc] at split
              have ends : [mark] = [last] := List.append_inj_right' split rfl
              have size := congrArg List.length split
              simp only [List.length_append, List.length_cons, List.length_nil] at size
              have within : front ++ [last] <+: gap := by
                refine List.prefix_of_prefix_length_le ⟨after, tail.symm⟩ (List.prefix_append gap right) ?_
                simp only [List.length_append, List.length_cons, List.length_nil]
                omega
              exact clear (within.subset (by simp [List.cons.inj ends]))
        rw [List.cons_append, find_later c elsewhere, find_later c here, ih]
        cases find left (mark :: inner ++ [mark]) with
        | none =>
            dsimp only
            rw [Option.map_map, Option.map_none]
            rfl
        | some found => rfl

end Search

section Trimming

theorem trimStart_cons {c : Char} {text : Text} (visible : isWhitespace c = false) :
    trimStart (c :: text) = c :: text := by
  simp [trimStart, visible]

theorem trimStart_append {space text : Text} (blank : ∀ c ∈ space, isWhitespace c = true) :
    trimStart (space ++ text) = trimStart text := by
  unfold trimStart
  induction space with
  | nil => rfl
  | cons c space ih =>
      rw [List.cons_append, List.dropWhile_cons_of_pos (blank c (by simp))]
      exact ih fun other member => blank other (List.mem_cons_of_mem c member)

theorem trimEnd_concat {c : Char} {text : Text} (visible : isWhitespace c = false) :
    trimEnd (text ++ [c]) = text ++ [c] := by
  rw [trimEnd, List.rdropWhile_concat_neg]
  simp [visible]

theorem trimEnd_append {space text : Text} (blank : ∀ c ∈ space, isWhitespace c = true) :
    trimEnd (text ++ space) = trimEnd text := by
  unfold trimEnd
  induction space using List.reverseRecOn with
  | nil => rw [List.append_nil]
  | append_singleton space c ih =>
      rw [← List.append_assoc, List.rdropWhile_concat_pos _ _ _ (blank c (by simp))]
      exact ih fun other member => blank other (by simp [member])

theorem trim_eq_self {text : Text} (starts : ∀ c ∈ text.head?, isWhitespace c = false)
    (ends : ∀ c ∈ text.getLast?, isWhitespace c = false) : trim text = text := by
  cases text with
  | nil => rfl
  | cons c text =>
      rw [trim, trimStart_cons (starts c rfl)]
      obtain ⟨body, last, split⟩ := List.eq_nil_or_concat (c :: text) |>.resolve_left (by simp)
      rw [List.concat_eq_append] at split
      rw [split] at ends ⊢
      exact trimEnd_concat (ends last (by simp))

theorem trim_append {text space : Text} (blank : ∀ c ∈ space, isWhitespace c = true)
    (nonempty : text ≠ []) (starts : ∀ c ∈ text.head?, isWhitespace c = false)
    (ends : ∀ c ∈ text.getLast?, isWhitespace c = false) : trim (text ++ space) = text := by
  cases text with
  | nil => contradiction
  | cons c text =>
      have whole := trim_eq_self starts ends
      rw [trim, trimStart_cons (starts c rfl)] at whole
      rw [trim, List.cons_append, trimStart_cons (starts c rfl), ← List.cons_append,
        trimEnd_append blank, whole]

/-- Trimming stops at the last visible character. -/
theorem trimEnd_behind {c : Char} (front text : Text) (visible : isWhitespace c = false) :
    trimEnd (front ++ c :: text) = front ++ c :: trimEnd text := by
  induction text using List.reverseRecOn with
  | nil => exact trimEnd_concat visible
  | append_singleton text last ih =>
      rw [← List.cons_append, ← List.append_assoc]
      cases blank : isWhitespace last with
      | true =>
          have single : ∀ c ∈ [last], isWhitespace c = true := by simp [blank]
          have shorter := @trimEnd_append [last] (front ++ c :: text) single
          rw [shorter, trimEnd_append single, ih]
      | false => rw [trimEnd_concat blank, trimEnd_concat blank, List.append_assoc, List.cons_append]

theorem trimStart_trim (text : Text) : trimStart (trim text) = trim text := by
  rw [trim]
  cases trimmed : trimStart text with
  | nil => rfl
  | cons c rest =>
      have visible : isWhitespace c = false := by
        have head := List.head?_dropWhile_not isWhitespace text
        rw [trimStart] at trimmed
        rw [trimmed] at head
        simpa using head
      have kept := trimEnd_behind [] rest visible
      rw [List.nil_append, List.nil_append] at kept
      rw [kept, trimStart_cons visible]

theorem trimEnd_visible {c : Char} (front text : Text) (visible : isWhitespace c = false) :
    ∃ kept, trimEnd (front ++ c :: text) = front ++ c :: kept :=
  ⟨trimEnd text, trimEnd_behind front text visible⟩

theorem trimStart_suffix (text : Text) : trimStart text <:+ text := List.dropWhile_suffix _

theorem trimEnd_initial (text : Text) : trimEnd text <+: text := List.rdropWhile_prefix _ _

end Trimming

section Joining

/-- Pieces joined by a separator and headed by one more are the pieces with one in front of each. -/
theorem separator_intercalate {separator : Text} {parts : List Text} (nonempty : parts ≠ []) :
    separator ++ separator.intercalate parts = parts.flatMap (separator ++ ·) := by
  induction parts with
  | nil => contradiction
  | cons part parts ih =>
      cases parts with
      | nil => simp
      | cons next parts =>
          rw [List.flatMap_cons, ← ih (by simp), List.intercalate_cons_cons, List.append_assoc,
            List.append_assoc]

end Joining

section Pieces

theorem firstPiece_append {delimiters piece rest : Text} {delimiter : Char}
    (stops : delimiter ∈ delimiters) (clear : ∀ c ∈ piece, c ∉ delimiters) :
    firstPiece delimiters (piece ++ delimiter :: rest) = piece := by
  rw [firstPiece, List.takeWhile_append_of_pos]
  · simp [stops]
  · intro c member
    simpa using clear c member

theorem splitOnce_first {separator : Char} {label name : Text} (first : separator ∉ label) :
    splitOnce separator (label ++ separator :: name) = some (label, name) := by
  refine find_of_first (by simp) ?_
  intro earlier later split
  by_contra short
  have shorter : earlier.length < label.length := by omega
  have inside : earlier ++ [separator] <+: label := by
    refine List.prefix_of_prefix_length_le ⟨later, split.symm⟩ (List.prefix_append _ _) ?_
    simp only [List.length_append, List.length_singleton]
    omega
  exact first (inside.subset (by simp))

theorem splitOnce_eq_some_iff {separator : Char} {text label name : Text} :
    splitOnce separator text = some (label, name) ↔
      text = label ++ separator :: name ∧ separator ∉ label := by
  constructor
  · intro found
    obtain ⟨split, least⟩ := find_first found
    refine ⟨by simpa using split, fun member => ?_⟩
    obtain ⟨front, back, parts⟩ := List.append_of_mem member
    have bound := least front (back ++ separator :: name) (by simp [split, parts])
    rw [parts, List.length_append, List.length_cons] at bound
    omega
  · rintro ⟨rfl, first⟩
    exact splitOnce_first first

theorem firstPiece_split (delimiters text : Text) :
    ∃ rest, text = firstPiece delimiters text ++ rest ∧ ∀ c ∈ rest.head?, c ∈ delimiters := by
  refine ⟨text.dropWhile (· ∉ delimiters), List.takeWhile_append_dropWhile.symm, ?_⟩
  intro c first
  have stopped := List.head?_dropWhile_not (· ∉ delimiters) text
  rw [Option.mem_def.mp first] at stopped
  simpa using stopped

theorem firstPiece_clear {delimiters text : Text} :
    ∀ c ∈ firstPiece delimiters text, c ∉ delimiters := by
  intro c member
  simpa using List.mem_takeWhile_imp member

theorem firstPiece_of_split {delimiters piece rest : Text}
    (ends : ∀ c ∈ rest.head?, c ∈ delimiters) (inside : ∀ c ∈ piece, c ∉ delimiters) :
    firstPiece delimiters (piece ++ rest) = piece := by
  cases rest with
  | nil =>
      rw [List.append_nil, firstPiece, List.takeWhile_eq_self_iff]
      intro c member
      simpa using inside c member
  | cons delimiter rest => exact firstPiece_append (ends delimiter rfl) inside

end Pieces

section Lines

theorem newline_not_mem_piece (text : Text) : ∀ piece ∈ text.splitOn '\n', '\n' ∉ piece := by
  induction text with
  | nil => simp
  | cons c text ih =>
      rw [List.splitOn_cons_eq_if_modifyHead]
      split
      · intro piece member
        rcases List.mem_cons.mp member with rfl | later
        · exact List.not_mem_nil
        · exact ih piece later
      · rename_i other
        have distinct : '\n' ≠ c := fun same => other (by simp [← same])
        cases pieces : text.splitOn '\n' with
        | nil => simp
        | cons first rest =>
            rw [pieces] at ih
            intro piece member
            rcases List.mem_cons.mp member with rfl | later
            · simpa [distinct] using ih first List.mem_cons_self
            · exact ih piece (List.mem_cons_of_mem _ later)

theorem trim_append_blank {space : Text} (blank : ∀ c ∈ space, isWhitespace c = true) (text : Text) :
    trim (text ++ space) = trim text := by
  have gone : space.dropWhile isWhitespace = [] := List.dropWhile_eq_nil_iff.mpr blank
  unfold trim
  rw [trimStart, List.dropWhile_append]
  split
  · rename_i empty
    rw [gone, trimStart, List.isEmpty_iff.mp empty]
  · exact trimEnd_append blank

theorem trim_stripReturn (line : Text) : trim (stripReturn line) = trim line := by
  unfold stripReturn
  split
  · rename_i last
    obtain ⟨front, rfl⟩ := List.getLast?_eq_some_iff.mp last
    rw [List.dropLast_concat]
    exact (trim_append_blank (by decide) front).symm
  · rfl

/-- Trimmed and without the blank ones, the lines are the pieces between the newlines. -/
theorem lines_trimmed (text : Text) :
    ((lines text).map trim).filter (· ≠ []) = ((text.splitOn '\n').map trim).filter (· ≠ []) := by
  have unchanged : ∀ pieces : List Text, pieces.modifyHead ([] ++ ·) = pieces := by
    intro pieces
    cases pieces <;> rfl
  have begun : ∀ line, ((linesFrom line text).map trim).filter (· ≠ []) =
      (((text.splitOn '\n').modifyHead (line ++ ·)).map trim).filter (· ≠ []) := by
    induction text with
    | nil =>
        intro line
        by_cases empty : line = []
        · subst empty
          rfl
        · simp [linesFrom, empty]
    | cons c text ih =>
        intro line
        rw [linesFrom, List.splitOn_cons_eq_if_modifyHead]
        simp only [beq_iff_eq]
        split
        · have later := ih []
          rw [unchanged] at later
          rw [List.modifyHead_cons, List.append_nil, List.map_cons, List.map_cons, trim_stripReturn,
            List.filter_cons, List.filter_cons, later]
        · rw [ih, List.modifyHead_modifyHead]
          simp [Function.comp_def]
  have whole := begun []
  rwa [unchanged] at whole

end Lines

end Text
