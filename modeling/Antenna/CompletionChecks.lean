import Antenna.EscapeChecks
import Antenna.PlatformCore

/-!
Whether the completion reader undoes the two encoders of Turtle literals. It does not know the escape
of a carriage return, and takes a long literal as it is written.
-/

namespace LeanAntenna

open Text

def completionMarker : Text := "antenna:completion".toList

def tripleQuote : Text := ['"', '"', '"']

section Short

/-- What the reader makes of an escaped character. -/
def completionChar (c : Char) : Char := if c = '\r' then '?' else c

theorem readCompletion_escapeChar (out : Text) (c : Char) (rest : Text) :
    readCompletion out (escapeChar c ++ rest) = readCompletion (out ++ [completionChar c]) rest := by
  by_cases special : c ∈ ['"', '\\', '\n', '\r']
  · simp only [List.mem_cons, List.not_mem_nil, or_false] at special
    rcases special with rfl | rfl | rfl | rfl <;> rfl
  · rw [escapeChar_plain special]
    simp only [List.mem_cons, List.not_mem_nil, or_false, not_or] at special
    obtain ⟨quote, backslash, -, ret⟩ := special
    rw [List.singleton_append, readCompletion, completionChar, if_neg ret]
    · exact quote
    all_goals
      intros
      exact absurd ‹_› backslash

theorem readCompletion_eventEscape (out text after : Text) :
    readCompletion out (eventEscape text ++ '"' :: after) = .ok (out ++ text.map completionChar) := by
  induction text generalizing out with
  | nil => simp [readCompletion]
  | cons c text ih =>
      rw [eventEscape_cons, List.append_assoc, readCompletion_escapeChar, ih]
      simp

theorem map_completionChar_iff {text : Text} : text.map completionChar = text ↔ '\r' ∉ text := by
  induction text with
  | nil => simp
  | cons c text ih =>
      rw [List.map_cons, List.cons.injEq, ih, List.mem_cons, not_or, completionChar]
      refine and_congr_left fun _ => ?_
      by_cases ret : c = '\r'
      · subst ret
        simp
      · simp [ret, Ne.symm ret]

end Short

section Long

theorem find_clear {text before after : Text} (found : find text tripleQuote = some (before, after)) :
    ¬ tripleQuote <:+: before := by
  rintro ⟨front, back, split⟩
  obtain ⟨whole, least⟩ := find_first found
  have short := least front (back ++ tripleQuote ++ after) (by rw [whole, ← split]; simp)
  have size := congrArg List.length split
  simp only [List.length_append, tripleQuote, List.length_cons, List.length_nil] at size
  omega

/-- The first three quotes behind a text that neither holds three nor ends in one are those put
behind it. -/
theorem find_tripleQuote {text : Text} (absent : ¬ tripleQuote <:+: text)
    (ends : text.getLast? ≠ some '"') (after : Text) :
    find (text ++ tripleQuote ++ after) tripleQuote = some (text, after) := by
  induction text with
  | nil => exact find_here tripleQuote after
  | cons c text ih =>
      have later : ¬ tripleQuote <:+: text := fun inside =>
        absent (inside.trans (List.suffix_cons c text).isInfix)
      have elsewhere : ¬ tripleQuote <+: c :: (text ++ tripleQuote ++ after) := by
        intro starts
        obtain ⟨rfl, second⟩ := List.cons_prefix_cons.mp starts
        cases text with
        | nil => exact ends rfl
        | cons d text =>
            obtain ⟨rfl, third⟩ := List.cons_prefix_cons.mp second
            cases text with
            | nil => exact ends rfl
            | cons e text =>
                obtain ⟨rfl, -⟩ := List.cons_prefix_cons.mp third
                exact absent ⟨[], text, rfl⟩
      have behind : text.getLast? ≠ some '"' := by
        cases text with
        | nil => simp
        | cons d text => rwa [List.getLast?_cons_cons] at ends
      rw [List.cons_append, List.cons_append, find_later c elsewhere, ih later behind]
      rfl

/-- Doubled backslashes keep quotes where they are. -/
theorem prefix_doubled {pattern text : Text} (plain : '\\' ∉ pattern)
    (starts : pattern <+: replace '\\' ['\\', '\\'] text) : pattern <+: text := by
  induction text generalizing pattern with
  | nil => exact starts
  | cons c text ih =>
      cases pattern with
      | nil => exact List.nil_prefix
      | cons d pattern =>
          have unlike : '\\' ≠ d := fun same => plain (same ▸ List.mem_cons_self)
          by_cases double : c = '\\'
          · subst double
            exact absurd (List.cons_prefix_cons.mp starts).1.symm unlike
          · have single : replace '\\' ['\\', '\\'] (c :: text) =
                c :: replace '\\' ['\\', '\\'] text := by
              simp [replace, double]
            rw [single] at starts
            obtain ⟨rfl, later⟩ := List.cons_prefix_cons.mp starts
            exact List.cons_prefix_cons.mpr
              ⟨rfl, ih (fun member => plain (List.mem_cons_of_mem _ member)) later⟩

theorem infix_doubled {text : Text} (inside : tripleQuote <:+: replace '\\' ['\\', '\\'] text) :
    tripleQuote <:+: text := by
  have plain : '\\' ∉ tripleQuote := by decide
  induction text with
  | nil => exact inside
  | cons c text ih =>
      by_cases double : c = '\\'
      · subst double
        have split : replace '\\' ['\\', '\\'] ('\\' :: text) =
            '\\' :: '\\' :: replace '\\' ['\\', '\\'] text := by
          simp [replace]
        rw [split, List.infix_cons_iff, List.infix_cons_iff] at inside
        rcases inside with first | second | later
        · exact absurd (List.cons_prefix_cons.mp first).1 (by decide)
        · exact absurd (List.cons_prefix_cons.mp second).1 (by decide)
        · exact List.infix_cons_iff.mpr (Or.inr (ih later))
      · have split : replace '\\' ['\\', '\\'] (c :: text) =
            c :: replace '\\' ['\\', '\\'] text := by
          simp [replace, double]
        have starts : tripleQuote <+: replace '\\' ['\\', '\\'] (c :: text) → tripleQuote <+: c :: text :=
          prefix_doubled plain
        rw [split] at inside starts
        rcases List.infix_cons_iff.mp inside with first | later
        · exact (starts first).isInfix
        · exact List.infix_cons_iff.mpr (Or.inr (ih later))

theorem escapeTripleQuotes_absent {text : Text} (absent : ¬ tripleQuote <:+: text) :
    escapeTripleQuotes text = text := by
  fun_induction escapeTripleQuotes text with
  | case1 rest => exact absurd ⟨[], rest, rfl⟩ absent
  | case2 c rest _ ih =>
      rw [ih fun inside => absent (inside.trans (List.suffix_cons c rest).isInfix)]
  | case3 => rfl

theorem length_doubled (text : Text) :
    (replace '\\' ['\\', '\\'] text).length = text.length + text.count '\\' := by
  induction text with
  | nil => rfl
  | cons c text ih =>
      rw [replace] at ih ⊢
      rw [List.flatMap_cons, List.length_append, ih, List.count_cons, List.length_cons]
      by_cases double : c = '\\'
      · simp [double]
        omega
      · simp [double]
        omega

theorem doubled_iff {text : Text} : replace '\\' ['\\', '\\'] text = text ↔ '\\' ∉ text := by
  rw [← List.count_eq_zero]
  constructor
  · intro same
    have size := length_doubled text
    rw [same] at size
    omega
  · intro absent
    have plain : '\\' ∉ text := List.count_eq_zero.mp absent
    rw [replace]
    calc text.flatMap (fun c => if c = '\\' then ['\\', '\\'] else [c])
        = text.flatMap (fun c => [c]) := List.flatMap_congr fun c member =>
          if_neg fun same : c = '\\' => plain (same ▸ member)
      _ = text := List.flatMap_singleton' text

theorem getLast_doubled {text : Text} (ends : text.getLast? ≠ some '"') :
    (replace '\\' ['\\', '\\'] text).getLast? ≠ some '"' := by
  cases text using List.reverseRecOn with
  | nil => simp [replace]
  | append_singleton front last =>
      rw [List.getLast?_concat, ne_eq, Option.some.injEq] at ends
      rw [replace, List.flatMap_append, List.getLast?_append]
      by_cases double : last = '\\'
      · simp [double]
      · simp [double, ends]

end Long

section Completion

/-- The marker is first found where a blank and the literal follow it. -/
def FirstCompletion (turtle literal after : Text) : Prop :=
  ∃ before, find turtle completionMarker = some (before, ' ' :: (literal ++ after))

variable {turtle text after : Text}

theorem trimStart_quoted (rest : Text) : trimStart (' ' :: '"' :: rest) = '"' :: rest := by
  have blank : ∀ c ∈ [' '], isWhitespace c = true := by decide
  have skipped : trimStart ([' '] ++ '"' :: rest) = trimStart ('"' :: rest) := trimStart_append blank
  rw [List.singleton_append] at skipped
  rw [skipped]
  exact trimStart_cons (by decide)

theorem extract_short (first : FirstCompletion turtle ('"' :: turtleEscape text ++ ['"']) after)
    (closed : text = [] → after.head? ≠ some '"') :
    extractTurtleCompletion turtle = .ok (text.map completionChar) := by
  obtain ⟨before, found⟩ := first
  have split : ' ' :: ('"' :: turtleEscape text ++ ['"'] ++ after) =
      ' ' :: '"' :: (eventEscape text ++ '"' :: after) := by
    rw [turtleEscape_eq_eventEscape]
    simp
  have short : ∀ rest, eventEscape text ++ '"' :: after ≠ '"' :: '"' :: rest := by
    intro rest same
    cases text with
    | nil =>
        obtain ⟨-, later⟩ := List.cons.inj same
        exact closed rfl (by rw [later]; rfl)
    | cons c text =>
        have starts : ∀ c : Char, (escapeChar c).head? ≠ some '"' ∧ escapeChar c ≠ [] := by
          intro c
          by_cases special : c ∈ ['"', '\\', '\n', '\r']
          · simp only [List.mem_cons, List.not_mem_nil, or_false] at special
            rcases special with rfl | rfl | rfl | rfl <;> decide
          · rw [escapeChar_plain special]
            simp only [List.mem_cons, not_or] at special
            simpa using special.1
        obtain ⟨unlike, nonempty⟩ := starts c
        have head := congrArg List.head? same
        rw [eventEscape_cons, List.append_assoc, List.head?_append_of_ne_nil _ nonempty] at head
        exact unlike head
  rw [extractTurtleCompletion, behind, show "antenna:completion".toList = completionMarker from rfl, found,
    Option.map_some, split]
  dsimp only
  rw [trimStart_quoted]
  split
  · rename_i rest same
    exact absurd (List.cons.inj same).2 (short rest)
  · rename_i rest _ same
    rw [← (List.cons.inj same).2, parseTurtleString, readCompletion_eventEscape, List.nil_append]
  · rename_i other
    exact absurd rfl (other _)

theorem extract_long (first : FirstCompletion turtle (longLiteral text) after) :
    extractTurtleCompletion turtle =
      match find (escapeTripleQuotes (replace '\\' ['\\', '\\'] text) ++ tripleQuote ++ after)
          tripleQuote with
      | some (completion, _) => .ok completion
      | none => .error "unterminated triple-quoted literal".toList := by
  obtain ⟨before, found⟩ := first
  have split : ' ' :: (longLiteral text ++ after) = ' ' :: '"' :: '"' :: '"' ::
      (escapeTripleQuotes (replace '\\' ['\\', '\\'] text) ++ tripleQuote ++ after) := by
    have quotes : "\"\"\"".toList = tripleQuote := by decide
    rw [longLiteral, quotes, replace]
    simp [tripleQuote]
  rw [extractTurtleCompletion, behind, show "antenna:completion".toList = completionMarker from rfl, found,
    Option.map_some, split]
  dsimp only
  rw [trimStart_quoted]
  rfl

/-- A completion comes back from a short literal exactly if it has no carriage return, and from a
long one exactly if it has neither a backslash nor three quotes in a row. -/
theorem completion_decoded_iff (turtle text after : Text) :
    (FirstCompletion turtle ('"' :: turtleEscape text ++ ['"']) after →
        (text = [] → after.head? ≠ some '"') →
          (extractTurtleCompletion turtle = .ok text ↔ '\r' ∉ text)) ∧
      (FirstCompletion turtle (longLiteral text) after → text.getLast? ≠ some '"' →
        (extractTurtleCompletion turtle = .ok text ↔
          '\\' ∉ text ∧ ¬ tripleQuote <:+: text)) := by
  constructor
  · intro first closed
    rw [extract_short first closed, ← map_completionChar_iff]
    exact ⟨Except.ok.inj, congrArg Except.ok⟩
  · intro first ends
    rw [extract_long first]
    have plain : ¬ tripleQuote <:+: text →
        find (escapeTripleQuotes (replace '\\' ['\\', '\\'] text) ++ tripleQuote ++ after) tripleQuote =
          some (replace '\\' ['\\', '\\'] text, after) := by
      intro absent
      have stillAbsent := fun inside => absent (infix_doubled inside)
      rw [escapeTripleQuotes_absent stillAbsent]
      exact find_tripleQuote stillAbsent (getLast_doubled ends) after
    constructor
    · intro decoded
      cases found : find (escapeTripleQuotes (replace '\\' ['\\', '\\'] text) ++ tripleQuote ++ after)
          tripleQuote with
      | none =>
          rw [found] at decoded
          cases decoded
      | some parts =>
          rw [found] at decoded
          have absent : ¬ tripleQuote <:+: text := by
            rw [← Except.ok.inj decoded]
            exact find_clear found
          rw [plain absent] at found
          cases found
          exact ⟨doubled_iff.mp (Except.ok.inj decoded), absent⟩
    · rintro ⟨single, absent⟩
      rw [plain absent, doubled_iff.mpr single]

def responseWith (literal : Text) : Text :=
  "_:resp a antenna:LlmResponse ; antenna:completion ".toList ++ literal ++ " .".toList

/-- Three texts that do not come back: one with a carriage return, one with a backslash and one with
three quotes. -/
theorem completion_altered :
    extractTurtleCompletion (responseWith ('"' :: turtleEscape ['\r'] ++ ['"'])) = .ok ['?'] ∧
      extractTurtleCompletion (responseWith (longLiteral ['\\'])) = .ok ['\\', '\\'] ∧
      extractTurtleCompletion (responseWith (longLiteral "\"\"\"x".toList)) = .ok "\\\"\\\"\\\"x".toList := by
  decide

theorem completion_decoded_plain :
    extractTurtleCompletion (responseWith ('"' :: turtleEscape ['a', '\t', '\\'] ++ ['"'])) =
        .ok ['a', '\t', '\\'] ↔ '\r' ∉ ['a', '\t', '\\'] := by
  have nonempty : ['a', '\t', '\\'] = [] → (" .".toList).head? ≠ some '"' := by decide
  have first : FirstCompletion (responseWith ('"' :: turtleEscape ['a', '\t', '\\'] ++ ['"']))
      ('"' :: turtleEscape ['a', '\t', '\\'] ++ ['"']) " .".toList :=
    ⟨"_:resp a antenna:LlmResponse ; ".toList, by decide⟩
  exact (completion_decoded_iff (responseWith ('"' :: turtleEscape ['a', '\t', '\\'] ++ ['"']))
    ['a', '\t', '\\'] " .".toList).1 first nonempty

end Completion

end LeanAntenna
