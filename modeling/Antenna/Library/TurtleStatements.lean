import Antenna.Library.TurtleQuoting
import Antenna.Library.TurtleTable

/-!
Documents read statement by statement, and what a reader makes of a text that was put between two
or between six double quotes.
-/

namespace Turtle

open Text

section Reading

/-- The tokens of one statement, and the text behind its dot. -/
def Parse.run (prefixes : Prefixes) : Nat → Parse → Text → Option (Parse × Text)
  | 0, _, _ => none
  | fuel + 1, parse, text =>
      (readToken (skipBlank false text)).bind fun (token, rest) =>
        (parse.step prefixes token).bind fun next =>
          if next.phase = .finished then some (next, rest) else run prefixes fuel next rest

def declarePrefix (prefixes : Prefixes) : Directive → Option Prefixes
  | .declare label raw =>
      (unescapeIri raw).map fun iri other => if other = label then some iri else prefixes other
  | .base _ => none

/-- The statements of a document without a base. Each of them and each directive takes a character,
so the length of the document is fuel enough. -/
def readStatements : Nat → Prefixes → Nat → Text → Option (List Statement)
  | 0, _, _, text => if skipBlank false text = [] then some [] else none
  | fuel + 1, prefixes, anonymous, text =>
      let start := skipBlank false text
      if start = [] then some []
      else if start.head? = some '@' then
        (readDirective start).bind fun (directive, rest) =>
          (declarePrefix prefixes directive).bind fun known =>
            readStatements fuel known anonymous rest
      else
        (Parse.run prefixes start.length { Parse.start with anonymous } start).bind
          fun (parse, rest) =>
            (readStatements fuel prefixes parse.anonymous rest).map (parse.statement :: ·)

def readDocument (text : Text) : Option (List Statement) :=
  readStatements text.length (fun _ => none) 0 text

/-- The objects of a predicate, in the order in which they are written. -/
def objects (predicate : Text) (statements : List Statement) : List Term :=
  (statements.flatMap Statement.facts).filterMap fun fact =>
    if fact.1 = predicate then some fact.2 else none

end Reading

section Quoted

theorem scanLiteral_text {closer text raw rest : Text}
    (scanned : scanLiteral closer text = some (raw, rest)) : text = raw ++ (closer ++ rest) := by
  fun_induction scanLiteral closer text generalizing raw rest with
  | case1 => contradiction
  | case2 c text ih =>
      obtain ⟨⟨inner, after⟩, later, same⟩ := Option.map_eq_some_iff.mp scanned
      cases same
      rw [ih later]
      rfl
  | case3 c text _ closes =>
      cases scanned
      rw [List.nil_append]
      exact (List.prefix_iff_eq_append.mp closes).symm
  | case4 c text _ _ ih =>
      obtain ⟨⟨inner, after⟩, later, same⟩ := Option.map_eq_some_iff.mp scanned
      cases same
      rw [ih later]
      rfl

/-- What a reader takes for a token at a double quote. -/
theorem readToken_cases {text : Text} {token : Token} {rest : Text}
    (read : readToken ('"' :: text) = some (token, rest)) :
    ∃ raw suffix behind, readSuffix behind = some (suffix, rest) ∧
      ((token = .literal .double raw suffix ∧ text = raw ++ '"' :: behind ∧ Enclosed raw) ∨
        (token = .literal .longDouble raw suffix ∧
          text = '"' :: '"' :: raw ++ '"' :: '"' :: '"' :: behind)) := by
  have taken : readLiteral .double .longDouble text = some (token, rest) := read
  unfold readLiteral readContent at taken
  split at taken
  · rename_i long
    simp only [Option.bind_eq_some_iff, Option.map_eq_some_iff, Prod.exists, Prod.mk.injEq] at taken
    obtain ⟨raw, behind, scanned, suffix, after, suffixed, rfl, rfl⟩ := taken
    obtain ⟨inner, rfl⟩ := long
    refine ⟨raw, suffix, behind, suffixed, .inr ⟨rfl, ?_⟩⟩
    have split := scanLiteral_text scanned
    exact congrArg (['"', '"'] ++ ·) split
  · simp only [Option.bind_eq_some_iff, Option.map_eq_some_iff, Prod.exists, Prod.mk.injEq] at taken
    obtain ⟨raw, behind, scanned, suffix, after, suffixed, rfl, rfl⟩ := taken
    exact ⟨raw, suffix, behind, suffixed, .inl ⟨rfl, scanLiteral_iff.mp scanned⟩⟩

theorem literal_of_readToken {text : Text} {found : Token × Text}
    (read : readToken ('"' :: text) = some found) :
    ∃ quote raw suffix, found.1 = .literal quote raw suffix := by
  obtain ⟨raw, suffix, -, -, ⟨same, -⟩ | ⟨same, -⟩⟩ := readToken_cases read
  · exact ⟨_, raw, suffix, same⟩
  · exact ⟨_, raw, suffix, same⟩

theorem charOfHex_newline {digits : Text} {char : Char} (read : charOfHex digits = some char) :
    digits.count '\n' = 0 := by
  obtain ⟨values, mapped, -⟩ := Option.bind_eq_some_iff.mp read
  apply List.count_eq_zero.mpr
  intro member
  have known := hexValues_known mapped '\n' member
  revert known
  decide

theorem breaks_le {front rest more : Text} {char : Char} (clear : front.count '\n' = 0)
    (later : rest.count '\n' ≤ more.count '\n') :
    (front ++ rest).count '\n' ≤ (char :: more).count '\n' := by
  have grows := (List.sublist_cons_self char more).count_le '\n'
  rw [List.count_append, clear]
  omega

/-- Escapes shorten a text and keep its line breaks. -/
theorem unescape_sizes {raw value : Text} (denotes : unescape raw = some value) :
    value.length ≤ raw.length ∧ (value.length = raw.length → '\\' ∉ raw ∧ value = raw) ∧
      raw.count '\n' ≤ value.count '\n' := by
  fun_induction unescape raw generalizing value with
  | case1 =>
      cases denotes
      simp
  | case2 a b c d rest ih =>
      obtain ⟨char, hex, others⟩ := Option.bind_eq_some_iff.mp denotes
      obtain ⟨more, later, rfl⟩ := Option.map_eq_some_iff.mp others
      obtain ⟨shorter, -, breaks⟩ := ih later
      have clear : (['\\', 'u'] ++ [a, b, c, d]).count '\n' = 0 := by
        rw [List.count_append, charOfHex_newline hex]
        decide
      simp only [List.length_cons]
      exact ⟨by omega, fun same => by omega, breaks_le clear breaks⟩
  | case3 a b c d e f g h rest ih =>
      obtain ⟨char, hex, others⟩ := Option.bind_eq_some_iff.mp denotes
      obtain ⟨more, later, rfl⟩ := Option.map_eq_some_iff.mp others
      obtain ⟨shorter, -, breaks⟩ := ih later
      have clear : (['\\', 'U'] ++ [a, b, c, d, e, f, g, h]).count '\n' = 0 := by
        rw [List.count_append, charOfHex_newline hex]
        decide
      simp only [List.length_cons]
      exact ⟨by omega, fun same => by omega, breaks_le clear breaks⟩
  | case4 => contradiction
  | case5 c rest _ _ ih =>
      obtain ⟨char, escaped, others⟩ := Option.bind_eq_some_iff.mp denotes
      obtain ⟨more, later, rfl⟩ := Option.map_eq_some_iff.mp others
      obtain ⟨shorter, -, breaks⟩ := ih later
      have visible : c ≠ '\n' := by
        rintro rfl
        cases escaped
      have clear : ['\\', c].count '\n' = 0 := List.count_eq_zero.mpr (by simp [visible.symm])
      simp only [List.length_cons]
      exact ⟨by omega, fun same => by omega, breaks_le clear breaks⟩
  | case6 c rest _ _ _ plain ih =>
      obtain ⟨more, later, rfl⟩ := Option.map_eq_some_iff.mp denotes
      obtain ⟨shorter, same, breaks⟩ := ih later
      have unlike : '\\' ≠ c := by
        rintro rfl
        cases rest with
        | nil => contradiction
        | cons d rest => exact plain d rest rfl rfl
      refine ⟨Nat.succ_le_succ shorter, ?_, ?_⟩
      · intro equal
        obtain ⟨clear, rfl⟩ := same (Nat.succ.inj equal)
        exact ⟨by simp [unlike, clear], rfl⟩
      · rw [List.count_cons, List.count_cons]
        omega

theorem enclosed_unquoted {raw : Text} (enclosed : Enclosed raw) (plain : '\\' ∉ raw) : '"' ∉ raw := by
  fun_induction Enclosed raw with
  | case1 => simp
  | case2 c raw ih => simp at plain
  | case3 c raw _ ih =>
      obtain ⟨-, unquoted, enclosed⟩ := enclosed
      simp only [List.mem_cons, not_or] at plain ⊢
      exact ⟨unquoted.symm, ih enclosed plain.2⟩

/-- Where no quote stands in front of a line break, the break is in front of the first quote. -/
theorem newline_before {front back inner behind : Text} (unquoted : '"' ∉ front)
    (split : front ++ '\n' :: back = inner ++ '"' :: behind) : '\n' ∈ inner := by
  rcases List.append_eq_append_iff.mp split with ⟨more, rfl, rest⟩ | ⟨more, rfl, rest⟩
  · cases more with
    | nil => cases rest
    | cons c more =>
        cases rest
        simp
  · cases more with
    | nil => cases rest
    | cons c more =>
        cases rest
        simp at unquoted

/-- A text between double quotes with a line break behind them is read as a literal of that value
only if it needs no escape. -/
theorem unescaped_of_literal {prefixes : Prefixes} {index : Nat} {content front back : Text}
    {token : Token} {rest : Text} {kind : LiteralKind} (unquoted : '"' ∉ front)
    (read : readToken ('"' :: (content ++ '"' :: (front ++ '\n' :: back))) = some (token, rest))
    (denotes : token.term prefixes index = some (.literal content kind)) :
    ∀ c ∈ content, c ∉ ['"', '\\', '\n', '\r'] := by
  obtain ⟨raw, suffix, behind, -, ⟨rfl, split, enclosed⟩ | ⟨rfl, split⟩⟩ := readToken_cases read
  · obtain ⟨allowed, unescaped, -⟩ := literal_denotes denotes
    obtain ⟨shorter, whole, -⟩ := unescape_sizes unescaped
    simp only [Quote.allows, Bool.and_eq_true, decide_eq_true_eq] at allowed
    have plain : raw = content → ∀ c ∈ content, c ∉ ['"', '\\', '\n', '\r'] := by
      rintro rfl c member listed
      have clear := (whole rfl).1
      have free := enclosed_unquoted enclosed clear
      simp only [List.mem_cons, List.not_mem_nil, or_false] at listed
      rcases listed with rfl | rfl | rfl | rfl
      · exact free member
      · exact clear member
      · exact allowed.1 member
      · exact allowed.2 member
    rcases List.append_eq_append_iff.mp split with ⟨more, rfl, tail⟩ | ⟨more, rfl, -⟩
    · cases more with
      | nil => exact plain (List.append_nil _)
      | cons c inner =>
          obtain ⟨rfl, later⟩ := List.cons.inj tail
          exact absurd (by simp [newline_before unquoted later]) allowed.1
    · rw [List.length_append] at shorter
      have none : more = [] := List.length_eq_zero_iff.mp (by omega)
      subst none
      exact plain (List.append_nil _).symm
  · obtain ⟨-, unescaped, -⟩ := literal_denotes denotes
    obtain ⟨shorter, -, breaks⟩ := unescape_sizes unescaped
    rcases List.append_eq_append_iff.mp split with ⟨more, whole, tail⟩ | ⟨more, rfl, -⟩
    · cases more with
      | nil =>
          rw [List.append_nil] at whole
          rw [← whole] at shorter
          simp only [List.length_cons] at shorter
          omega
      | cons c inner =>
          obtain ⟨rfl, later⟩ := List.cons.inj tail
          have inside := List.count_pos_iff.mpr (newline_before unquoted later)
          have counts := congrArg (List.count '\n') whole
          simp only [List.count_append, List.count_cons] at counts
          simp at counts
          omega
    · simp only [List.cons_append, List.length_append, List.length_cons] at shorter
      omega

theorem readSuffix_other {text : Text} (other : ∀ c ∈ text.head?, c ∉ ['@', '^']) :
    readSuffix text = some (.plain, text) := by
  unfold readSuffix
  split
  · exact absurd (by simp) (other '@' rfl)
  · exact absurd (by simp) (other '^' rfl)
  · rfl

theorem readToken_long {text raw rest : Text}
    (scanned : scanLiteral Quote.longDouble.text text = some (raw, rest))
    (other : ∀ c ∈ rest.head?, c ∉ ['@', '^']) :
    readToken ('"' :: '"' :: '"' :: text) = some (.literal .longDouble raw .plain, rest) := by
  have first : readToken ('"' :: '"' :: '"' :: text) =
      readLiteral .double .longDouble ('"' :: '"' :: text) := rfl
  have long : Quote.double.text ++ Quote.double.text <+: '"' :: '"' :: text := ⟨text, rfl⟩
  rw [first, readLiteral, if_pos long, readContent]
  show (scanLiteral _ text).bind _ = _
  rw [scanned, Option.bind_some]
  simp only [readSuffix_other other, Option.map_some]

end Quoted

section Running

variable {prefixes : Prefixes} {parse next last : Parse} {text rest end' : Text}

/-- Reading a text in a state leads to a text that is still to be read, in another state. -/
def Parse.Reaches (prefixes : Prefixes) (parse : Parse) (text : Text) (next : Parse) (rest : Text) :
    Prop :=
  ∀ fuel, text.length ≤ fuel →
    ∃ left, rest.length ≤ left ∧ parse.run prefixes fuel text = next.run prefixes left rest

theorem Parse.Reaches.trans (first : parse.Reaches prefixes text next rest)
    (second : next.Reaches prefixes rest last end') : parse.Reaches prefixes text last end' := by
  intro fuel enough
  obtain ⟨middle, between, same⟩ := first fuel enough
  obtain ⟨left, behind, also⟩ := second middle between
  exact ⟨left, behind, same.trans also⟩

theorem Parse.run_gap {gap : Text} (blank : ∀ c ∈ gap, isSpace c = true) (fuel : Nat) :
    parse.run prefixes fuel (gap ++ text) = parse.run prefixes fuel text := by
  cases fuel with
  | zero => rfl
  | succ fuel => rw [Parse.run, Parse.run, skipBlank_gap blank]

theorem Parse.Reaches.gap {gap : Text} (blank : ∀ c ∈ gap, isSpace c = true) :
    parse.Reaches prefixes (gap ++ text) parse text := by
  intro fuel enough
  rw [List.length_append] at enough
  exact ⟨fuel, by omega, Parse.run_gap blank fuel⟩

theorem Parse.Reaches.token {token : Token} (visible : skipBlank false text = text)
    (read : readToken text = some (token, rest)) (shorter : rest.length < text.length)
    (stepped : parse.step prefixes token = some next) (goes : next.phase ≠ .finished) :
    parse.Reaches prefixes text next rest := by
  intro fuel enough
  cases fuel with
  | zero => omega
  | succ fuel =>
      refine ⟨fuel, by omega, ?_⟩
      rw [Parse.run, visible, read, Option.bind_some]
      simp only [stepped, Option.bind_some, if_neg goes]

/-- Only the dot ends a statement. -/
theorem Parse.step_unfinished {token : Token} (goes : token ≠ .dot)
    (stepped : parse.step prefixes token = some next) : next.phase ≠ .finished := by
  unfold Parse.step at stepped
  split at stepped
  · split at stepped
    · obtain ⟨subject, -, rfl⟩ := Option.map_eq_some_iff.mp stepped
      simp
    · contradiction
  · obtain ⟨predicate, -, rfl⟩ := Option.map_eq_some_iff.mp stepped
    simp
  · rename_i phase
    split at stepped
    · cases stepped
      simp [phase]
    · contradiction
    · obtain ⟨predicate, -, rfl⟩ := Option.map_eq_some_iff.mp stepped
      simp
  · obtain ⟨object, -, rfl⟩ := Option.map_eq_some_iff.mp stepped
    simp
  · split at stepped <;> cases stepped
    · simp
    · simp
    · exact absurd rfl goes
  · contradiction

theorem skipBlank_readable {token : Token} (readable : token.Readable) (rest : Text) :
    skipBlank false (token.text ++ rest) = token.text ++ rest := by
  obtain ⟨c, more, starts, visible⟩ := text_head readable
  have unhashed := readable_unhashed readable
  rw [starts] at unhashed ⊢
  exact skipBlank_visible visible fun hash => unhashed (by rw [hash]; rfl)

/-- Tokens with white space behind each that do not end their statement. -/
def Loose (written : List Written) : Prop :=
  ∀ part ∈ written, part.1.Readable ∧ part.1 ≠ .dot ∧ part.2 ≠ [] ∧ ∀ c ∈ part.2, isSpace c = true

theorem Parse.Reaches.render {written : List Written} (loose : Loose written)
    (stepped : parse.steps prefixes (written.map Prod.fst) = some next) :
    parse.Reaches prefixes (render written ++ rest) next rest := by
  induction written generalizing parse with
  | nil =>
      cases stepped
      exact fun fuel enough => ⟨fuel, enough, rfl⟩
  | cons part written ih =>
      obtain ⟨token, gap⟩ := part
      obtain ⟨readable, goes, nonempty, blank⟩ := loose _ List.mem_cons_self
      rw [List.map_cons, Parse.steps_cons, Option.bind_eq_some_iff] at stepped
      obtain ⟨middle, first, others⟩ := stepped
      have later := ih (fun part member => loose part (List.mem_cons_of_mem _ member)) others
      have ends : ∀ c ∈ (gap ++ (Turtle.render written ++ rest)).head?, isSpace c = true := by
        intro c head
        cases gap with
        | nil => contradiction
        | cons d gap =>
            cases head
            exact blank _ List.mem_cons_self
      obtain ⟨c, more, starts, -⟩ := text_head readable
      have own : parse.Reaches prefixes (token.text ++ (gap ++ (Turtle.render written ++ rest))) middle
          (gap ++ (Turtle.render written ++ rest)) := by
        refine .token (skipBlank_readable readable _) (readToken_text readable ends) ?_ first
          (Parse.step_unfinished goes first)
        simp only [starts, List.length_append, List.length_cons]
        omega
      rw [render_cons, List.append_assoc, List.append_assoc]
      exact own.trans ((Parse.Reaches.gap blank).trans later)

/-- Behind the subject a run only adds facts. -/
theorem Parse.run_facts {fuel : Nat} {parse final : Parse} (past : parse.phase ≠ .subject)
    (ran : parse.run prefixes fuel text = some (final, rest)) :
    parse.statement.facts <+: final.statement.facts := by
  induction fuel generalizing parse text with
  | zero => contradiction
  | succ fuel ih =>
      rw [Parse.run, Option.bind_eq_some_iff] at ran
      obtain ⟨⟨token, behind⟩, -, ran⟩ := ran
      obtain ⟨middle, stepped, ran⟩ := Option.bind_eq_some_iff.mp ran
      obtain ⟨later, -, grows⟩ := Parse.step_facts past stepped
      split at ran
      · cases ran
        exact grows
      · exact grows.trans (ih later ran)

/-- The object of a literal is among the facts of its statement. -/
theorem Parse.fact_of_run {fuel : Nat} {final : Parse} {predicate : Text}
    (phase : parse.phase = .object predicate) (visible : skipBlank false text = text)
    (ran : parse.run prefixes fuel text = some (final, rest)) :
    ∃ token behind term, readToken text = some (token, behind) ∧
      token.term prefixes parse.anonymous = some term ∧
      parse.statement.facts ++ [(predicate, term)] <+: final.statement.facts := by
  cases fuel with
  | zero => contradiction
  | succ fuel =>
      rw [Parse.run, visible, Option.bind_eq_some_iff] at ran
      obtain ⟨⟨token, behind⟩, read, ran⟩ := ran
      obtain ⟨middle, stepped, ran⟩ := Option.bind_eq_some_iff.mp ran
      simp only [Parse.step, phase, Option.map_eq_some_iff] at stepped
      obtain ⟨term, denotes, rfl⟩ := stepped
      refine ⟨token, behind, term, read, denotes, ?_⟩
      split at ran
      · cases ran
        exact List.prefix_rfl
      · exact Parse.run_facts (by simp) ran

/-- The state behind an object. -/
def Parse.holding (parse : Parse) (predicate : Text) (term : Term) : Parse where
  phase := .afterObject predicate
  anonymous := parse.anonymous
  statement := { parse.statement with facts := parse.statement.facts ++ [(predicate, term)] }

theorem Parse.step_literal {predicate raw value : Text} {quote : Quote}
    (phase : parse.phase = .object predicate) (allowed : quote.allows raw = true)
    (denotes : unescape raw = some value) :
    parse.step prefixes (.literal quote raw .plain) =
      some (parse.holding predicate (.literal value .string)) := by
  simp [Parse.step, phase, Token.term, allowed, denotes, Suffix.kind, Token.anonymousCount,
    Parse.holding]

theorem Parse.run_dot {predicate : Text} (phase : parse.phase = .afterObject predicate) (fuel : Nat)
    (text : Text) :
    parse.run prefixes (fuel + 1) ('.' :: text) = some ({ parse with phase := .finished }, text) := by
  have visible : skipBlank false ('.' :: text) = '.' :: text :=
    skipBlank_visible (by decide) (by decide)
  have read : readToken ('.' :: text) = some (.dot, text) := rfl
  rw [Parse.run, visible, read, Option.bind_some]
  simp [Parse.step, phase]

/-- No object follows an object. -/
theorem Parse.run_literal {predicate : Text} (phase : parse.phase = .afterObject predicate)
    (fuel : Nat) (text : Text) : parse.run prefixes fuel ('"' :: text) = none := by
  cases fuel with
  | zero => rfl
  | succ fuel =>
      have visible : skipBlank false ('"' :: text) = '"' :: text :=
        skipBlank_visible (by decide) (by decide)
      rw [Parse.run, visible]
      cases read : readToken ('"' :: text) with
      | none => rfl
      | some found =>
          obtain ⟨quote, raw, suffix, literal⟩ := literal_of_readToken read
          simp [literal, Parse.step, phase]

end Running

section Documents

/-- Behind a prefix a document is read as the statement that it begins with and the rest. -/
theorem readDocument_declared {written : WrittenDirective} {prefixes : Prefixes} {c : Char}
    {body : Text} (legal : written.Legal)
    (declared : declarePrefix (fun _ => none) written.directive = some prefixes)
    (visible : isSpace c = false) (other : c ∉ ['#', '@']) :
    ∃ fuel, readDocument (written.text ++ c :: body) =
      (Parse.start.run prefixes (c :: body).length (c :: body)).bind fun (parse, rest) =>
        (readStatements fuel prefixes parse.anonymous rest).map (parse.statement :: ·) := by
  simp only [List.mem_cons, List.not_mem_nil, or_false, not_or] at other
  obtain ⟨more, starts⟩ : ∃ more, written.text ++ c :: body = '@' :: more := by
    unfold WrittenDirective.text WrittenDirective.opening
    cases written.directive <;> exact ⟨_, rfl⟩
  have read := readDirective_text legal (c :: body)
  have gap : ∀ c ∈ written.gap, isSpace c = true := fun c member => legal.spaces c (by simp [member])
  have first : skipBlank false ('@' :: more) = '@' :: more :=
    skipBlank_visible (by decide) (by decide)
  have behind : skipBlank false (written.gap ++ c :: body) = c :: body := by
    rw [skipBlank_gap gap, skipBlank_visible visible other.1]
  have size : (written.text ++ c :: body).length = written.text.length + body.length + 1 := by
    rw [List.length_append, List.length_cons]
    rfl
  obtain ⟨fuel, enough⟩ : ∃ fuel, (written.text ++ c :: body).length = fuel + 2 := by
    refine ⟨written.text.length - 1 + body.length, ?_⟩
    have nonempty : 0 < written.text.length := by
      unfold WrittenDirective.text
      simp only [List.length_append, List.length_cons]
      omega
    omega
  refine ⟨fuel, ?_⟩
  rw [readDocument, enough, starts, readStatements]
  rw [starts] at read
  simp only [first, read, List.head?_cons, if_true, reduceCtorEq, if_false, Option.bind_some, declared]
  rw [readStatements]
  simp only [behind, List.head?_cons, Option.some.injEq, other.2, reduceCtorEq, if_false]
  rfl

theorem readStatements_blank {text : Text} (blank : skipBlank false text = []) (fuel : Nat)
    (prefixes : Prefixes) (anonymous : Nat) :
    readStatements fuel prefixes anonymous text = some [] := by
  cases fuel <;> simp [readStatements, blank]

/-- The first object of a predicate that a statement does not have before. -/
theorem objects_first {predicate : Text} {term : Term} {front : List (Text × Term)}
    {statement : Statement} (others : List Statement) (fresh : ∀ fact ∈ front, fact.1 ≠ predicate)
    (first : front ++ [(predicate, term)] <+: statement.facts) :
    (objects predicate (statement :: others)).head? = some term := by
  obtain ⟨back, facts⟩ := first
  have none : front.filterMap (fun fact => if fact.1 = predicate then some fact.2 else none) = [] := by
    rw [List.filterMap_eq_nil_iff]
    exact fun fact member => if_neg (fresh fact member)
  rw [objects, List.flatMap_cons, ← facts, List.append_assoc, List.append_assoc, List.filterMap_append,
    none]
  simp

end Documents

end Turtle
