import Antenna.Library.TurtleWriter

/-! Reading one line with its comments, and the marks with which a statement ends. -/

namespace Turtle

open Text

section Comments

/-- What stands behind white space and comments. -/
def skipBlank (inComment : Bool) : Text → Text
  | [] => []
  | c :: rest =>
      if inComment then skipBlank (c ∉ ['\n', '\r']) rest
      else if isSpace c then skipBlank false rest
      else if c = '#' then skipBlank true rest
      else c :: rest

def lineTokens : Nat → Text → Option (List Token)
  | 0, text => if skipBlank false text = [] then some [] else none
  | fuel + 1, text =>
      let start := skipBlank false text
      if start = [] then some []
      else (readToken start).bind fun (token, rest) => (lineTokens fuel rest).map (token :: ·)

/-- The statement a text is, if it is exactly one beside its comments. -/
def readLine (prefixes : Prefixes) (text : Text) : Option Statement :=
  (lineTokens text.length text).bind (statement prefixes)

theorem skipBlank_gap {gap rest : Text} (spaces : ∀ c ∈ gap, isSpace c = true) :
    skipBlank false (gap ++ rest) = skipBlank false rest := by
  induction gap with
  | nil => rfl
  | cons c gap ih =>
      rw [List.cons_append, skipBlank, if_neg (by simp), if_pos (spaces c (by simp))]
      exact ih fun d member => spaces d (List.mem_cons_of_mem c member)

theorem skipBlank_visible {c : Char} {rest : Text} (visible : isSpace c = false)
    (other : c ≠ '#') : skipBlank false (c :: rest) = c :: rest := by
  simp [skipBlank, visible, other]

/-- A comment reaches to the end of its line. -/
theorem skipBlank_comment {comment : Text} (oneLine : ∀ c ∈ comment, c ∉ ['\n', '\r']) :
    skipBlank true comment = [] := by
  induction comment with
  | nil => rfl
  | cons c comment ih =>
      have within : decide (c ∉ ['\n', '\r']) = true := decide_eq_true (oneLine c (by simp))
      rw [skipBlank, if_pos rfl, within]
      exact ih fun d member => oneLine d (List.mem_cons_of_mem c member)

theorem skipBlank_dropWhile {text : Text} (plain : (text.dropWhile isSpace).head? ≠ some '#') :
    skipBlank false text = text.dropWhile isSpace := by
  induction text with
  | nil => rfl
  | cons c text ih =>
      cases space : isSpace c with
      | true =>
          rw [List.dropWhile_cons_of_pos space] at plain ⊢
          rw [skipBlank, if_neg (by simp), if_pos space, ih plain]
      | false =>
          rw [List.dropWhile_cons_of_neg (by simp [space])] at plain ⊢
          exact skipBlank_visible space (by simpa using plain)

theorem readToken_hash (rest : Text) : readToken ('#' :: rest) = none := by
  have ended : word ('#' :: rest) = ([], '#' :: rest) := by
    rw [word]
    · rfl
    · simp
    · simp
  simp [readToken, readWord, ended]

/-- Tokens without comments are read as before. -/
theorem lineTokens_of_tokens {fuel : Nat} {text : Text} {found : List Token}
    (read : tokens fuel text = some found) : lineTokens fuel text = some found := by
  induction fuel generalizing text found with
  | zero =>
      unfold tokens at read
      split at read
      · rename_i blank
        have skipped : skipBlank false text = [] := by
          rw [skipBlank_dropWhile (by simp [blank]), blank]
        rw [lineTokens, if_pos skipped]
        exact read
      · contradiction
  | succ fuel ih =>
      unfold tokens at read
      simp only at read
      split at read
      · rename_i blank
        have skipped : skipBlank false text = [] := by
          rw [skipBlank_dropWhile (by simp [blank]), blank]
        rw [lineTokens, if_pos skipped]
        exact read
      · rename_i visible
        rw [Option.bind_eq_some_iff] at read
        obtain ⟨⟨token, rest⟩, first, others⟩ := read
        rw [Option.map_eq_some_iff] at others
        obtain ⟨more, later, rfl⟩ := others
        have skipped : skipBlank false text = text.dropWhile isSpace := by
          apply skipBlank_dropWhile
          intro hash
          obtain ⟨later, starts⟩ := List.head?_eq_some_iff.mp hash
          rw [starts, readToken_hash] at first
          contradiction
        simp only [lineTokens, skipped, if_neg visible, first, Option.bind_some, ih later,
          Option.map_some]

theorem readLine_of_read {prefixes : Prefixes} {text : Text} {result : Statement}
    (found : read prefixes text = some result) : readLine prefixes text = some result := by
  unfold read at found
  rw [Option.bind_eq_some_iff] at found
  obtain ⟨written, tokenized, parsed⟩ := found
  rw [readLine, lineTokens_of_tokens tokenized, Option.bind_some, parsed]

theorem readable_unhashed {token : Token} (readable : token.Readable) :
    token.text.head? ≠ some '#' := by
  intro hash
  obtain ⟨later, starts⟩ := List.head?_eq_some_iff.mp hash
  have read : readToken (token.text ++ []) = some (token, []) := readToken_text readable (by simp)
  rw [List.append_nil, starts, readToken_hash] at read
  contradiction

theorem lineTokens_space {c : Char} (space : isSpace c = true) (fuel : Nat) (rest : Text) :
    lineTokens fuel (c :: rest) = lineTokens fuel rest := by
  have skipped : skipBlank false (c :: rest) = skipBlank false rest := by
    rw [skipBlank, if_neg (by simp), if_pos space]
  cases fuel <;> simp only [lineTokens, skipped]

theorem lineTokens_token {fuel : Nat} {token : Token} (readable : token.Readable) (rest : Text) :
    lineTokens (fuel + 1) (token.text ++ ' ' :: rest) =
      (lineTokens fuel rest).map (token :: ·) := by
  obtain ⟨c, more, starts, visible⟩ := text_head readable
  have other : c ≠ '#' := by
    rintro rfl
    exact readable_unhashed readable (by rw [starts]; rfl)
  have skipped : skipBlank false (token.text ++ ' ' :: rest) = token.text ++ ' ' :: rest := by
    rw [starts]
    exact skipBlank_visible visible other
  have read : readToken (token.text ++ ' ' :: rest) = some (token, ' ' :: rest) :=
    readToken_text readable (by simp [isSpace])
  have nonempty : token.text ++ ' ' :: rest ≠ [] := by simp [starts]
  simp only [lineTokens, skipped, if_neg nonempty, read, Option.bind_some,
    lineTokens_space (show isSpace ' ' = true by decide)]

/-- On one line nothing is skipped but white space and a last comment. -/
theorem skipBlank_split {text : Text} (oneLine : ∀ c ∈ text, c ∉ ['\n', '\r']) :
    ∃ gap, (∀ c ∈ gap, isSpace c = true) ∧
      (text = gap ++ skipBlank false text ∨
        skipBlank false text = [] ∧ ∃ comment, text = gap ++ '#' :: comment) := by
  induction text with
  | nil => exact ⟨[], by simp, Or.inl rfl⟩
  | cons c text ih =>
      have later : ∀ d ∈ text, d ∉ ['\n', '\r'] := fun d member =>
        oneLine d (List.mem_cons_of_mem c member)
      cases space : isSpace c with
      | true =>
          obtain ⟨gap, spaces, split⟩ := ih later
          have skipped : skipBlank false (c :: text) = skipBlank false text := by
            rw [skipBlank, if_neg (by simp), if_pos space]
          refine ⟨c :: gap, by simpa [space] using spaces, ?_⟩
          rw [skipped]
          rcases split with whole | ⟨ended, comment, whole⟩
          · exact Or.inl (congrArg (c :: ·) whole)
          · exact Or.inr ⟨ended, comment, congrArg (c :: ·) whole⟩
      | false =>
          refine ⟨[], by simp, ?_⟩
          by_cases hash : c = '#'
          · subst hash
            refine Or.inr ⟨?_, text, rfl⟩
            rw [skipBlank, if_neg (by simp), if_neg (by decide), if_pos rfl]
            exact skipBlank_comment later
          · exact Or.inl (skipBlank_visible space hash).symm

end Comments

section Ending

/-- Marks that end a statement behind an object: semicolons, then the dot. -/
def Ends (marks : Text) : Prop :=
  ∃ front back, marks = front ++ '.' :: back ∧ (∀ c ∈ front, isSpace c = true ∨ c = ';') ∧
    ∀ c ∈ back, isSpace c = true

/-- Before its object a statement cannot end without another fact. -/
theorem Parse.steps_grow {prefixes : Prefixes} {tokens : List Token} {parse final : Parse}
    {predicate : Text} (phase : parse.phase = .object predicate)
    (ran : parse.steps prefixes tokens = some final) (ended : final.phase = .finished) :
    parse.statement.facts.length < final.statement.facts.length := by
  cases tokens with
  | nil =>
      cases ran
      rw [phase] at ended
      contradiction
  | cons token tokens =>
      rw [Parse.steps_cons, Option.bind_eq_some_iff] at ran
      obtain ⟨next, stepped, rest⟩ := ran
      simp only [Parse.step, phase, Option.map_eq_some_iff] at stepped
      obtain ⟨object, -, rfl⟩ := stepped
      have grows := (Parse.steps_facts (by simp) rest).length_le
      rw [List.length_append, List.length_singleton] at grows
      omega

theorem Parse.step_verb {prefixes : Prefixes} {token : Token} {parse next : Parse}
    (phase : parse.phase = .nextVerb) (stepped : parse.step prefixes token = some next)
    (other : token ≠ .semicolon ∧ token ≠ .dot) :
    ∃ predicate, next.phase = .object predicate ∧ next.statement = parse.statement := by
  simp only [Parse.step, phase] at stepped
  split at stepped
  · exact absurd rfl other.1
  · exact absurd rfl other.2
  · rw [Option.map_eq_some_iff] at stepped
    obtain ⟨predicate, -, rfl⟩ := stepped
    exact ⟨predicate, rfl, rfl⟩

theorem Parse.steps_finished {prefixes : Prefixes} {tokens : List Token} {parse final : Parse}
    (phase : parse.phase = .finished) (ran : parse.steps prefixes tokens = some final) :
    tokens = [] := by
  cases tokens with
  | nil => rfl
  | cons token tokens =>
      rw [Parse.steps_cons, Option.bind_eq_some_iff] at ran
      obtain ⟨next, stepped, -⟩ := ran
      simp [Parse.step, phase] at stepped

/-- Behind an object a statement that gets no more facts goes on with semicolons and its dot. -/
theorem Parse.steps_ends {prefixes : Prefixes} {tokens : List Token} {parse final : Parse}
    (phase : (∃ predicate, parse.phase = .afterObject predicate) ∨ parse.phase = .nextVerb)
    (ran : parse.steps prefixes tokens = some final) (ended : final.phase = .finished)
    (same : final.statement.facts.length = parse.statement.facts.length) :
    ∃ count, tokens = List.replicate count .semicolon ++ [.dot] := by
  induction tokens generalizing parse with
  | nil =>
      cases ran
      rw [ended] at phase
      simp at phase
  | cons token tokens ih =>
      rw [Parse.steps_cons, Option.bind_eq_some_iff] at ran
      obtain ⟨next, stepped, rest⟩ := ran
      have semicolon : token = .semicolon → ∃ count,
          token :: tokens = List.replicate count .semicolon ++ [.dot] := by
        rintro rfl
        have again : next.phase = .nextVerb ∧ next.statement = parse.statement := by
          rcases phase with ⟨predicate, phase⟩ | phase
          · simp only [Parse.step, phase, Option.some.injEq] at stepped
            subst stepped
            exact ⟨rfl, rfl⟩
          · simp only [Parse.step, phase, Option.some.injEq] at stepped
            subst stepped
            exact ⟨phase, rfl⟩
        obtain ⟨count, more⟩ := ih (Or.inr again.1) rest (by rw [same, again.2])
        exact ⟨count + 1, by rw [more]; rfl⟩
      have dot : token = .dot → ∃ count,
          token :: tokens = List.replicate count .semicolon ++ [.dot] := by
        rintro rfl
        have done : next.phase = .finished := by
          rcases phase with ⟨predicate, phase⟩ | phase
          · simp only [Parse.step, phase, Option.some.injEq] at stepped
            rw [← stepped]
          · simp only [Parse.step, phase, Option.some.injEq] at stepped
            rw [← stepped]
        rw [Parse.steps_finished done rest]
        exact ⟨0, rfl⟩
      -- any other token would lead to an object
      have grown : ∀ predicate, next.phase = .object predicate →
          next.statement = parse.statement → False := by
        intro predicate atObject kept
        have more := Parse.steps_grow atObject rest ended
        rw [kept] at more
        omega
      by_cases other : token ≠ .semicolon ∧ token ≠ .dot
      · rcases phase with ⟨predicate, phase⟩ | phase
        · simp only [Parse.step, phase] at stepped
          split at stepped
          · cases stepped
            exact absurd rfl (grown predicate rfl)
          · exact absurd rfl other.1
          · exact absurd rfl other.2
          · contradiction
        · obtain ⟨predicate, atObject, kept⟩ := Parse.step_verb phase stepped other
          exact (grown predicate atObject kept).elim
      · by_cases last : token = .dot
        · exact dot last
        · exact semicolon (by tauto)

theorem Parse.steps_marks {prefixes : Prefixes} {parse : Parse} (count : Nat)
    (phase : (∃ predicate, parse.phase = .afterObject predicate) ∨ parse.phase = .nextVerb) :
    parse.steps prefixes (List.replicate count .semicolon ++ [.dot]) =
      some { parse with phase := .finished } := by
  induction count generalizing parse with
  | zero => rcases phase with ⟨predicate, phase⟩ | phase <;> simp [Parse.step, phase]
  | succ count ih =>
      have next : parse.step prefixes .semicolon = some { parse with phase := .nextVerb } := by
        rcases phase with ⟨predicate, phase⟩ | phase
        · simp [Parse.step, phase]
        · obtain ⟨previous, anonymous, statement⟩ := parse
          simp only at phase
          subst phase
          rfl
      rw [List.replicate_succ, List.cons_append, Parse.steps_cons, next, Option.bind_some,
        ih (Or.inr rfl)]

theorem readToken_mark {start rest : Text} {token : Token} (mark : token = .semicolon ∨ token = .dot)
    (read : readToken start = some (token, rest)) : start = token.text ++ rest := by
  cases start with
  | nil => contradiction
  | cons c start =>
      have word : ∀ text, readWord text ≠ some (token, rest) := by
        intro text made
        unfold readWord at made
        repeat' split at made
        all_goals first
          | contradiction
          | (simp only [Option.some.injEq, Prod.mk.injEq] at made
             rcases mark with rfl | rfl <;> simp at made)
      have literal : ∀ short long text, readLiteral short long text ≠ some (token, rest) := by
        intro short long text made
        unfold readLiteral readContent at made
        split at made
        all_goals
          simp only [Option.bind_eq_some_iff, Option.map_eq_some_iff, Prod.exists,
            Prod.mk.injEq] at made
          obtain ⟨raw, after, -, suffix, rest', -, same, -⟩ := made
          rcases mark with rfl | rfl <;> contradiction
      simp only [readToken] at read
      repeat' split at read
      all_goals first
        | exact absurd read (word _)
        | exact absurd read (literal _ _ _)
        | contradiction
        | (simp only [Option.map_eq_some_iff, Prod.mk.injEq] at read
           obtain ⟨named, -, same, -⟩ := read
           rcases mark with rfl | rfl <;> contradiction)
        | (simp only [Option.some.injEq, Prod.mk.injEq] at read
           obtain ⟨same, rfl⟩ := read
           subst same
           first
             | (subst_vars
                rfl)
             | simp at mark)

theorem first_of_lineTokens {fuel : Nat} {text : Text} {token : Token} {found : List Token}
    (oneLine : ∀ c ∈ text, c ∉ ['\n', '\r']) (mark : token = .semicolon ∨ token = .dot)
    (read : lineTokens fuel text = some (token :: found)) :
    ∃ gap, (∀ c ∈ gap, isSpace c = true) ∧ ∃ rest fuel, lineTokens fuel rest = some found ∧
      text = gap ++ (token.text ++ rest) := by
  obtain ⟨gap, spaces, split⟩ := skipBlank_split oneLine
  cases fuel with
  | zero =>
      unfold lineTokens at read
      split at read <;> simp at read
  | succ fuel =>
      unfold lineTokens at read
      simp only at read
      split at read
      · simp at read
      · rename_i visible
        simp only [Option.bind_eq_some_iff, Option.map_eq_some_iff, List.cons.injEq,
          Prod.exists] at read
        obtain ⟨first, rest, taken, more, later, rfl, rfl⟩ := read
        rw [readToken_mark mark taken] at split
        refine ⟨gap, spaces, rest, fuel, later, ?_⟩
        rcases split with whole | ⟨ended, -⟩
        · exact whole
        · rw [readToken_mark mark taken] at visible
          rcases mark with rfl | rfl <;> simp [Token.text] at ended

theorem nothing_of_lineTokens {fuel : Nat} {text : Text} (oneLine : ∀ c ∈ text, c ∉ ['\n', '\r'])
    (read : lineTokens fuel text = some []) :
    ∃ gap, (∀ c ∈ gap, isSpace c = true) ∧ (text = gap ∨ ∃ comment, text = gap ++ '#' :: comment) := by
  have skipped : skipBlank false text = [] := by
    cases fuel with
    | zero =>
        unfold lineTokens at read
        split at read
        · assumption
        · contradiction
    | succ fuel =>
        unfold lineTokens at read
        simp only at read
        split at read
        · assumption
        · rw [Option.bind_eq_some_iff] at read
          obtain ⟨⟨token, rest⟩, -, others⟩ := read
          rw [Option.map_eq_some_iff] at others
          obtain ⟨more, -, filled⟩ := others
          contradiction
  obtain ⟨gap, spaces, split⟩ := skipBlank_split oneLine
  rw [skipped, List.append_nil] at split
  exact ⟨gap, spaces, split.imp_right And.right⟩

/-- A line whose tokens are marks consists of them, up to a comment. -/
theorem marks_of_lineTokens {count fuel : Nat} {text : Text}
    (oneLine : ∀ c ∈ text, c ∉ ['\n', '\r'])
    (read : lineTokens fuel text = some (List.replicate count .semicolon ++ [.dot])) :
    ∃ marks, Ends marks ∧ (text = marks ∨ ∃ comment, text = marks ++ '#' :: comment) := by
  induction count generalizing fuel text with
  | zero =>
      obtain ⟨gap, spaces, rest, later, first, rfl⟩ := first_of_lineTokens oneLine (Or.inr rfl) read
      obtain ⟨more, blank, split⟩ := nothing_of_lineTokens
        (fun c member => oneLine c (by simp [member])) first
      refine ⟨gap ++ '.' :: more, ⟨gap, more, rfl, fun c member => Or.inl (spaces c member), blank⟩, ?_⟩
      rcases split with rfl | ⟨comment, rfl⟩
      · exact Or.inl rfl
      · exact Or.inr ⟨comment, by simp [Token.text]⟩
  | succ count ih =>
      obtain ⟨gap, spaces, rest, later, first, rfl⟩ := first_of_lineTokens oneLine (Or.inl rfl) read
      obtain ⟨marks, ⟨front, back, rfl, inside, blank⟩, split⟩ :=
        ih (fun c member => oneLine c (by simp [member])) first
      refine ⟨gap ++ ';' :: (front ++ '.' :: back),
        ⟨gap ++ ';' :: front, back, by simp, ?_, blank⟩, ?_⟩
      · intro c member
        rcases List.mem_append.mp member with before | member
        · exact Or.inl (spaces c before)
        · rcases List.mem_cons.mp member with same | behind
          · exact Or.inr same
          · exact inside c behind
      · rcases split with rfl | ⟨comment, rfl⟩
        · exact Or.inl rfl
        · exact Or.inr ⟨comment, by simp [Token.text]⟩

theorem lineTokens_blank {text : Text} (skipped : skipBlank false text = []) (fuel : Nat) :
    lineTokens fuel text = some [] := by
  cases fuel <;> simp [lineTokens, skipped]

/-- Marks in front of a comment are read as marks. -/
theorem lineTokens_marks {front back comment : Text} {fuel : Nat}
    (inside : ∀ c ∈ front, isSpace c = true ∨ c = ';') (blank : ∀ c ∈ back, isSpace c = true)
    (oneLine : ∀ c ∈ comment, c ∉ ['\n', '\r']) (enough : front.length < fuel) :
    ∃ count, lineTokens fuel (front ++ '.' :: (back ++ '#' :: comment)) =
      some (List.replicate count .semicolon ++ [.dot]) := by
  induction front generalizing fuel with
  | nil =>
      obtain ⟨fuel, rfl⟩ : ∃ more, fuel = more + 1 := ⟨fuel - 1, by simp at enough; omega⟩
      have skipped : skipBlank false (back ++ '#' :: comment) = [] := by
        rw [skipBlank_gap blank, skipBlank, if_neg (by simp), if_neg (by decide), if_pos rfl]
        exact skipBlank_comment oneLine
      have dot : readToken ('.' :: (back ++ '#' :: comment)) =
          some (.dot, back ++ '#' :: comment) := rfl
      refine ⟨0, ?_⟩
      rw [List.nil_append, lineTokens, skipBlank_visible (by decide) (by decide)]
      simp only [reduceCtorEq, if_false, dot, Option.bind_some, lineTokens_blank skipped,
        Option.map_some]
      rfl
  | cons c front ih =>
      have others : ∀ d ∈ front, isSpace d = true ∨ d = ';' := fun d member =>
        inside d (List.mem_cons_of_mem c member)
      rw [List.length_cons] at enough
      rcases inside c (by simp) with space | rfl
      · rw [List.cons_append, lineTokens_space space]
        exact ih others (by omega)
      · obtain ⟨fuel, rfl⟩ : ∃ more, fuel = more + 1 := ⟨fuel - 1, by omega⟩
        obtain ⟨count, later⟩ := @ih fuel others (by omega)
        have semicolon : readToken (';' :: (front ++ '.' :: (back ++ '#' :: comment))) =
            some (.semicolon, front ++ '.' :: (back ++ '#' :: comment)) := rfl
        refine ⟨count + 1, ?_⟩
        rw [List.cons_append, lineTokens, skipBlank_visible (by decide) (by decide)]
        simp only [reduceCtorEq, if_false, semicolon, Option.bind_some, later, Option.map_some]
        rfl

theorem lineTokens_ends {marks comment : Text} {fuel : Nat} (ends : Ends marks)
    (oneLine : ∀ c ∈ comment, c ∉ ['\n', '\r']) (enough : marks.length ≤ fuel) :
    ∃ count, lineTokens fuel (marks ++ '#' :: comment) =
      some (List.replicate count .semicolon ++ [.dot]) := by
  obtain ⟨front, back, rfl, inside, blank⟩ := ends
  rw [List.length_append, List.length_cons] at enough
  rw [List.append_assoc]
  exact lineTokens_marks inside blank oneLine (by omega)

end Ending

end Turtle
