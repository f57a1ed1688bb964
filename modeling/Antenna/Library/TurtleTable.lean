import Antenna.Library.TurtleDocument

/-!
A reader of documents whose statements are listed in a table: it reads directives, comments and the
listed statements, in any order.
-/

namespace Turtle

open Text

/-- Statements as they are written, each with the triples it stands for. -/
structure StatementTable where
  entries : List (Text × List NamedTriple)
  opens : ∀ entry ∈ entries, entry.1.head? = some '<'

/-- An IRI reference and the dot behind it. -/
def readReference (text : Text) : Option (Text × Text) :=
  match text.dropWhile isSpace with
  | '<' :: rest =>
      (splitOnce '>' rest).bind fun (iri, behind) =>
        match behind.dropWhile isSpace with
        | '.' :: rest => some (iri, rest)
        | _ => none
  | _ => none

def readDirective (text : Text) : Option (Directive × Text) :=
  if "@prefix".toList <+: text then
    (splitOnce ':' ((text.drop "@prefix".toList.length).dropWhile isSpace)).bind fun (label, behind) =>
      (readReference behind).map fun (iri, rest) => (.declare label iri, rest)
  else if "@base".toList <+: text then
    (readReference (text.drop "@base".toList.length)).map fun (iri, rest) => (.base iri, rest)
  else none

namespace StatementTable

variable (table : StatementTable)

/-- The items of a text. Each of them takes a character, so its length is fuel enough. -/
def readItems : Nat → Text → Option (List Item)
  | 0, text => if text.dropWhile isSpace = [] then some [] else none
  | fuel + 1, text =>
      match text.dropWhile isSpace with
      | [] => some []
      | '#' :: comment => readItems fuel (comment.dropWhile (· ≠ '\n'))
      | '@' :: rest =>
          (readDirective ('@' :: rest)).bind fun (directive, rest) =>
            (readItems fuel rest).map (.directive directive :: ·)
      | start =>
          (table.entries.find? fun entry => entry.1.isPrefixOf start).bind fun (written, triples) =>
            (readItems fuel (start.drop written.length)).map (triples.map .triple ++ ·)

/-- References are taken as they are. -/
def grammar : Grammar where
  items text := table.readItems text.length text
  resolve _ raw := some raw

end StatementTable

section Directives

theorem dropWhile_blank {space : Text} {c : Char} {rest : Text} (blank : ∀ d ∈ space, isSpace d = true)
    (visible : isSpace c = false) : (space ++ c :: rest).dropWhile isSpace = c :: rest := by
  rw [List.dropWhile_append_of_pos blank]
  simp [visible]

theorem readReference_text {before iri after : Text} (legal : (unescapeIri iri).isSome = true)
    (spaces : ∀ c ∈ before ++ after, isSpace c = true) (rest : Text) :
    readReference (before ++ '<' :: iri ++ '>' :: after ++ '.' :: rest) = some (iri, rest) := by
  obtain ⟨value, denotes⟩ := Option.isSome_iff_exists.mp legal
  have closed : '>' ∉ iri := fun member => unescapeIri_closed denotes '>' member (by simp)
  have text : before ++ '<' :: iri ++ '>' :: after ++ '.' :: rest =
      before ++ '<' :: (iri ++ '>' :: (after ++ '.' :: rest)) := by simp
  rw [readReference, text,
    dropWhile_blank (fun c member => spaces c (List.mem_append_left _ member)) (by decide)]
  simp only [splitOnce_first closed, Option.bind_some]
  rw [dropWhile_blank (fun c member => spaces c (List.mem_append_right _ member)) (by decide)]
  rfl

theorem isNameChar_visible {c : Char} (inName : isNameChar c = true) : isSpace c = false ∧ c ≠ ':' := by
  have refused : ∀ c ∈ [' ', '\t', '\r', '\n', ':'], isNameChar c = false := by decide
  have unlisted : c ∉ [' ', '\t', '\r', '\n', ':'] := by
    intro listed
    rw [refused c listed] at inName
    cases inName
  simp only [List.mem_cons, List.not_mem_nil, or_false, not_or] at unlisted
  exact ⟨by simp [isSpace]; tauto, unlisted.2.2.2.2⟩

/-- A directive is read back from the text it is written as. -/
theorem readDirective_text {written : WrittenDirective} (legal : written.Legal) (rest : Text) :
    readDirective (written.text ++ rest) = some (written.directive, written.gap ++ rest) := by
  have known := legal.iri
  have named := legal.label
  have spaces := legal.spaces
  obtain ⟨directive, before, middle, after, gap⟩ := written
  simp only [List.mem_append, or_imp, forall_and] at spaces
  obtain ⟨⟨⟨early, inner⟩, late⟩, -⟩ := spaces
  have reference : ∀ space iri, (unescapeIri iri).isSome = true → (∀ c ∈ space, isSpace c = true) →
      readReference (space ++ '<' :: iri ++ '>' :: after ++ '.' :: (gap ++ rest)) =
        some (iri, gap ++ rest) := by
    intro space iri legal blank
    refine readReference_text legal (fun c member => ?_) _
    exact (List.mem_append.mp member).elim (blank c) (late c)
  cases directive with
  | base iri =>
      have other : ¬ "@prefix".toList <+: ("@base".toList ++ (before ++ '<' :: iri ++ '>' :: after ++
          '.' :: (gap ++ rest))) := by
        rintro ⟨more, same⟩
        simp at same
      have text : (WrittenDirective.mk (.base iri) before middle after gap).text ++ rest =
          "@base".toList ++ (before ++ '<' :: iri ++ '>' :: after ++ '.' :: (gap ++ rest)) := by
        simp [WrittenDirective.text, WrittenDirective.opening, WrittenDirective.iri]
      rw [readDirective, text, if_neg other, if_pos (List.prefix_append _ _), List.drop_left,
        reference before iri known early]
      rfl
  | declare label iri =>
      have text : (WrittenDirective.mk (.declare label iri) before middle after gap).text ++ rest =
          "@prefix".toList ++ (before ++ (label ++ ':' :: (middle ++ '<' :: iri ++ '>' :: after ++
            '.' :: (gap ++ rest)))) := by
        simp [WrittenDirective.text, WrittenDirective.opening, WrittenDirective.iri]
      have unmarked : ':' ∉ label := by
        intro member
        rcases named ':' member with inName | dot
        · exact (isNameChar_visible inName).2 rfl
        · exact absurd dot (by decide)
      have skipped : ∀ behind, (before ++ (label ++ ':' :: behind)).dropWhile isSpace =
          label ++ ':' :: behind := by
        intro behind
        cases label with
        | nil => exact dropWhile_blank early (by decide)
        | cons c label =>
            refine dropWhile_blank early ?_
            rcases named c (by simp [WrittenDirective.label]) with inName | rfl
            · exact (isNameChar_visible inName).1
            · decide
      rw [readDirective, text, if_pos (List.prefix_append _ _), List.drop_left, skipped,
        splitOnce_first unmarked, Option.bind_some]
      dsimp only
      rw [reference middle iri known inner]
      rfl

theorem readReference_shorter {text iri rest : Text} (read : readReference text = some (iri, rest)) :
    rest.length < text.length := by
  have within := (List.dropWhile_suffix isSpace : text.dropWhile isSpace <:+ text).length_le
  unfold readReference at read
  split at read
  · rename_i inner opens
    obtain ⟨⟨raw, behind⟩, closes, dotted⟩ := Option.bind_eq_some_iff.mp read
    obtain ⟨split, -⟩ := splitOnce_eq_some_iff.mp closes
    dsimp only at dotted
    split at dotted
    · rename_i more dot
      cases dotted
      have inside := (List.dropWhile_suffix isSpace : behind.dropWhile isSpace <:+ behind).length_le
      rw [dot, List.length_cons] at inside
      rw [opens, split] at within
      simp only [List.length_cons, List.length_append] at within
      omega
    · cases dotted
  · cases read

theorem readDirective_shorter {text : Text} {directive : Directive} {rest : Text}
    (read : readDirective text = some (directive, rest)) : rest.length < text.length := by
  unfold readDirective at read
  split at read
  · obtain ⟨⟨label, behind⟩, marked, named⟩ := Option.bind_eq_some_iff.mp read
    obtain ⟨⟨iri, more⟩, referred, same⟩ := Option.map_eq_some_iff.mp named
    cases same
    have shorter := readReference_shorter referred
    have within := (List.dropWhile_suffix isSpace :
      (text.drop "@prefix".toList.length).dropWhile isSpace <:+ _).length_le
    obtain ⟨split, -⟩ := splitOnce_eq_some_iff.mp marked
    rw [split, List.length_append, List.length_cons, List.length_drop] at within
    omega
  · split at read
    · obtain ⟨⟨iri, more⟩, referred, same⟩ := Option.map_eq_some_iff.mp read
      cases same
      have shorter := readReference_shorter referred
      rw [List.length_drop] at shorter
      omega
    · cases read

end Directives

namespace StatementTable

variable {table : StatementTable}

theorem entry_nonempty {entry : Text × List NamedTriple} (member : entry ∈ table.entries) :
    0 < entry.1.length := by
  have opens := table.opens entry member
  cases written : entry.1 with
  | nil =>
      rw [written] at opens
      cases opens
  | cons c rest => exact Nat.succ_pos _

/-- Fuel beyond the length of the text changes nothing. -/
theorem readItems_enough {fuel others : Nat} {text : Text} (enough : text.length ≤ fuel)
    (alsoEnough : text.length ≤ others) : table.readItems fuel text = table.readItems others text := by
  have blank : ∀ fuel, table.readItems fuel [] = some [] := by
    intro fuel
    cases fuel <;> rfl
  induction fuel generalizing others text with
  | zero =>
      have empty : text = [] := List.length_eq_zero_iff.mp (Nat.le_zero.mp enough)
      rw [empty, blank, blank]
  | succ fuel ih =>
      cases others with
      | zero =>
          have empty : text = [] := List.length_eq_zero_iff.mp (Nat.le_zero.mp alsoEnough)
          rw [empty, blank, blank]
      | succ others =>
          have within := (List.dropWhile_suffix isSpace : text.dropWhile isSpace <:+ text).length_le
          rw [readItems, readItems]
          generalize text.dropWhile isSpace = start at within
          split
          · rfl
          · rename_i comment
            have shorter := (List.dropWhile_suffix (· ≠ '\n') :
              comment.dropWhile (· ≠ '\n') <:+ comment).length_le
            rw [List.length_cons] at within
            exact ih (by omega) (by omega)
          · rename_i rest
            cases read : readDirective ('@' :: rest) with
            | none => rfl
            | some parts =>
                have shorter := readDirective_shorter read
                have same : table.readItems fuel parts.2 = table.readItems others parts.2 :=
                  ih (by omega) (by omega)
                simp only [Option.bind_some, same]
          · cases listed : table.entries.find? (fun entry => entry.1.isPrefixOf start) with
            | none => rfl
            | some entry =>
                have long := entry_nonempty (List.mem_of_find?_eq_some listed)
                have shorter : (start.drop entry.1.length).length ≤ text.length - entry.1.length := by
                  rw [List.length_drop]
                  omega
                have same : table.readItems fuel (start.drop entry.1.length) =
                    table.readItems others (start.drop entry.1.length) := ih (by omega) (by omega)
                simp only [Option.bind_some, same]

theorem items_enough {fuel : Nat} {text : Text} (enough : text.length ≤ fuel) :
    table.readItems fuel text = table.grammar.items text := readItems_enough enough le_rfl

/-- White space in front of a text is skipped. -/
theorem items_space {space : Text} (blank : ∀ c ∈ space, isSpace c = true) (text : Text) :
    table.grammar.items (space ++ text) = table.grammar.items text := by
  have skipped : (space ++ text).dropWhile isSpace = text.dropWhile isSpace :=
    List.dropWhile_append_of_pos blank
  have fuel : (space ++ text).length ≤ (space ++ text).length + 1 := Nat.le_succ _
  have also : text.length ≤ (space ++ text).length + 1 := by
    rw [List.length_append]
    omega
  rw [← items_enough fuel, ← items_enough also, readItems, readItems, skipped]

theorem readsDirectives : table.grammar.ReadsDirectives := by
  intro written rest legal
  obtain ⟨more, starts⟩ : ∃ more, written.text ++ rest = '@' :: more := by
    unfold WrittenDirective.text WrittenDirective.opening
    cases written.directive <;> exact ⟨_, rfl⟩
  have read := readDirective_text legal rest
  have shorter := readDirective_shorter read
  have gap : ∀ c ∈ written.gap, isSpace c = true := fun c member => legal.spaces c (by simp [member])
  have fuel : (written.text ++ rest).length ≤ (written.text ++ rest).length + 1 := Nat.le_succ _
  have skipped : (written.text ++ rest).dropWhile isSpace = '@' :: more := by
    rw [starts]
    rfl
  rw [starts] at read
  rw [← items_enough fuel, readItems, skipped]
  change (readDirective ('@' :: more)).bind _ = _
  rw [read, Option.bind_some]
  dsimp only
  rw [items_enough shorter.le, items_space gap]

end StatementTable

end Turtle
