import Antenna.Library.Turtle

/-! Reading text into Turtle tokens, and that a statement written with white space between its
tokens is read back. -/

namespace Turtle

open Text

section Reading

def isStop (c : Char) : Bool := isSpace c || c ∈ Char.ofNat 39 :: "<>\"[]();,^@#\x7b\x7d".toList

/-- The longest run of name characters. A dot belongs to it only if it goes on behind the dot. -/
def word : Text → Text × Text
  | [] => ([], [])
  | '\\' :: c :: rest => let (run, after) := word rest; ('\\' :: c :: run, after)
  | '.' :: c :: rest =>
      if isStop c then ([], '.' :: c :: rest)
      else let (run, after) := word (c :: rest); ('.' :: run, after)
  | c :: rest =>
      if isStop c || c == '.' then ([], c :: rest)
      else let (run, after) := word rest; (c :: run, after)

def readName (text : Text) : Option (Name × Text) :=
  if text.head? = some '<' then
    (splitOnce '>' (text.drop 1)).map fun (raw, rest) => (.iriRef raw, rest)
  else
    (splitOnce ':' (word text).1).map fun (label, localName) =>
      (.prefixed label localName, (word text).2)

/-- The content of a literal up to the closing quotes that no backslash precedes. -/
def scanLiteral (closer : Text) : Text → Option (Text × Text)
  | [] => none
  | '\\' :: c :: rest => (scanLiteral closer rest).map (prepend ['\\', c])
  | c :: rest =>
      if closer <+: c :: rest then some ([], (c :: rest).drop closer.length)
      else (scanLiteral closer rest).map (prepend [c])

def readSuffix (text : Text) : Option (Suffix × Text) :=
  match text with
  | '@' :: rest =>
      let isTag := fun c : Char => c.isAlphanum || c == '-'
      some (.language (rest.takeWhile isTag), rest.dropWhile isTag)
  | '^' :: '^' :: rest => (readName rest).map fun (name, rest) => (.typed name, rest)
  | rest => some (.plain, rest)

def readContent (quote : Quote) (text : Text) : Option (Token × Text) :=
  (scanLiteral quote.text text).bind fun (raw, after) =>
    (readSuffix after).map fun (suffix, rest) => (.literal quote raw suffix, rest)

/-- A literal behind its first quote: two more make the quotes long. -/
def readLiteral (short long : Quote) (text : Text) : Option (Token × Text) :=
  if short.text ++ short.text <+: text then readContent long (text.drop 2)
  else readContent short text

def readWord (text : Text) : Option (Token × Text) :=
  let (raw, rest) := word text
  if raw = [] then none
  else if raw = ['a'] then some (.isA, rest)
  else
    match splitOnce ':' raw with
    | some (label, localName) =>
        if label = ['_'] then some (.blankLabel localName, rest)
        else some (.name (.prefixed label localName), rest)
    | none => some (.bare raw, rest)

def readToken : Text → Option (Token × Text)
  | [] => none
  | c :: rest =>
      if c = '<' then (readName (c :: rest)).map fun (name, rest) => (.name name, rest)
      else if c = '[' then
        let inner := rest.dropWhile isSpace
        if inner.head? = some ']' then some (.anonymous, inner.drop 1) else none
      else if c = ';' then some (.semicolon, rest)
      else if c = ',' then some (.comma, rest)
      else if c = '.' then some (.dot, rest)
      else if c = '"' then readLiteral .double .longDouble rest
      else if c.toNat = 39 then readLiteral .single .longSingle rest
      else readWord (c :: rest)

/-- All tokens of a text. Every token takes a character, so its length is fuel enough. -/
def tokens : Nat → Text → Option (List Token)
  | 0, text => if text.dropWhile isSpace = [] then some [] else none
  | fuel + 1, text =>
      let start := text.dropWhile isSpace
      if start = [] then some []
      else (readToken start).bind fun (token, rest) => (tokens fuel rest).map (token :: ·)

/-- The statement a text is, if it is exactly one. -/
def read (prefixes : Prefixes) (text : Text) : Option Statement :=
  (tokens text.length text).bind (statement prefixes)

end Reading

section WrittenBack

/-- The content of a literal: no quote and no backslash but in an escape. -/
def Enclosed : Text → Prop
  | [] => True
  | '\\' :: _ :: rest => Enclosed rest
  | c :: rest => c ≠ '\\' ∧ c ≠ '"' ∧ Enclosed rest

def PlainWord (text : Text) : Prop := ∀ c ∈ text, isStop c = false ∧ c ∉ ['.', '\\']

def Name.Readable : Name → Prop
  | .iriRef raw => '>' ∉ raw
  | .prefixed label localName => PlainWord (label ++ ':' :: localName) ∧ ':' ∉ label ∧ label ≠ ['_']

def Suffix.Readable : Suffix → Prop
  | .plain => True
  | .language tag => ∀ c ∈ tag, (c.isAlphanum || c == '-') = true
  | .typed datatype => datatype.Readable

/-- The tokens that are read back wherever white space follows them. -/
def Token.Readable : Token → Prop
  | .name written => written.Readable
  | .blankLabel label => PlainWord label
  | .literal quote raw suffix => quote = .double ∧ Enclosed raw ∧ suffix.Readable
  | .bare raw => PlainWord raw ∧ ':' ∉ raw ∧ raw ≠ [] ∧ raw ≠ ['a']
  | _ => True

variable {follow : Text}

theorem word_plain {text : Text} (plain : PlainWord text) (ends : ∀ c ∈ follow.head?, isSpace c = true) :
    word (text ++ follow) = (text, follow) := by
  induction text with
  | nil =>
      cases follow with
      | nil => rfl
      | cons c follow =>
          have space := ends c rfl
          have stop : isStop c = true := by simp [isStop, space]
          have plainHead : c ≠ '\\' ∧ c ≠ '.' := by
            constructor <;> (rintro rfl; contradiction)
          rw [List.nil_append, word]
          · simp [stop]
          · rintro d more rfl
            exact absurd rfl plainHead.1
          · rintro d more rfl
            exact absurd rfl plainHead.2
  | cons c text ih =>
      obtain ⟨go, unlike⟩ := plain c (by simp)
      simp only [List.mem_cons, List.not_mem_nil, or_false, not_or] at unlike
      rw [List.cons_append, word]
      · rw [ih fun d member => plain d (List.mem_cons_of_mem c member)]
        simp [go, unlike.1]
      · rintro d more rfl
        exact absurd rfl unlike.2
      · rintro d more rfl
        exact absurd rfl unlike.1

theorem readName_text {name : Name} (readable : name.Readable)
    (ends : ∀ c ∈ follow.head?, isSpace c = true) :
    readName (name.text ++ follow) = some (name, follow) := by
  cases name with
  | iriRef raw =>
      have split : splitOnce '>' (raw ++ '>' :: follow) = some (raw, follow) := splitOnce_first readable
      simp [readName, Name.text, split]
  | prefixed label localName =>
      obtain ⟨plain, first, -⟩ := readable
      have unbracketed : ((label ++ ':' :: localName) ++ follow).head? ≠ some '<' := by
        intro head
        cases label with
        | nil => cases head
        | cons c label =>
            cases head
            have stop := (plain '<' (by simp)).1
            contradiction
      rw [Name.text, readName, if_neg unbracketed, word_plain plain ends, splitOnce_first first]
      rfl

theorem scanLiteral_enclosed {raw : Text} (enclosed : Enclosed raw) :
    scanLiteral ['"'] (raw ++ '"' :: follow) = some (raw, follow) := by
  fun_induction Enclosed raw with
  | case1 => simp [scanLiteral]
  | case2 c raw ih => simp [scanLiteral, ih enclosed]
  | case3 c raw unlike ih =>
      obtain ⟨plain, unquoted, enclosed⟩ := enclosed
      rw [List.cons_append, scanLiteral]
      · have elsewhere : ¬ ['"'] <+: c :: (raw ++ '"' :: follow) := by
          simpa [List.cons_prefix_cons] using fun same : '"' = c => unquoted same.symm
        rw [if_neg elsewhere, ih enclosed]
        rfl
      · rintro d more rfl
        exact absurd rfl plain

theorem readSuffix_text {suffix : Suffix} (readable : suffix.Readable)
    (ends : ∀ c ∈ follow.head?, isSpace c = true) :
    readSuffix (suffix.text ++ follow) = some (suffix, follow) := by
  cases suffix with
  | plain =>
      cases follow with
      | nil => rfl
      | cons c follow =>
          have space := ends c rfl
          unfold readSuffix Suffix.text
          split <;> simp_all [isSpace]
  | language tag =>
      have stops : ∀ c ∈ follow.head?, (c.isAlphanum || c == '-') = false := by
        intro c head
        have space := ends c head
        simp only [isSpace, List.mem_cons, List.not_mem_nil, or_false, decide_eq_true_eq] at space
        rcases space with rfl | rfl | rfl | rfl <;> rfl
      have whole : ∀ p : Char → Bool, (∀ c ∈ tag, p c = true) → (∀ c ∈ follow.head?, p c = false) →
          (tag ++ follow).takeWhile p = tag ∧ (tag ++ follow).dropWhile p = follow := by
        intro p inside outside
        rw [List.takeWhile_append_of_pos inside, List.dropWhile_append_of_pos inside]
        cases follow with
        | nil => simp
        | cons c follow => simp [outside c rfl]
      have parts := whole _ readable stops
      simp only [Suffix.text, List.cons_append, readSuffix, parts.1, parts.2]
  | typed datatype =>
      simp [Suffix.text, readSuffix, readName_text readable ends]

theorem suffix_unquoted {suffix : Suffix} (readable : suffix.Readable)
    (ends : ∀ c ∈ follow.head?, isSpace c = true) : (suffix.text ++ follow).head? ≠ some '"' := by
  cases suffix with
  | plain =>
      intro head
      have space := ends '"' head
      contradiction
  | language tag => simp [Suffix.text]
  | typed datatype => simp [Suffix.text]

/-- The first quote of a short literal is not followed by two more. -/
theorem not_long_quote {raw rest : Text} (enclosed : Enclosed raw) (unquoted : rest.head? ≠ some '"') :
    ¬ Quote.double.text ++ Quote.double.text <+: raw ++ '"' :: rest := by
  intro long
  rw [Quote.text, List.singleton_append] at long
  cases raw with
  | nil =>
      cases rest with
      | nil => simp at long
      | cons c rest =>
          obtain ⟨rfl, -⟩ := List.cons_prefix_cons.mp (List.cons_prefix_cons.mp long).2
          simp at unquoted
  | cons c raw =>
      obtain ⟨rfl, -⟩ := List.cons_prefix_cons.mp long
      rw [Enclosed] at enclosed
      · exact enclosed.2.1 rfl
      · rintro d more same
        cases same

theorem readWord_text {text : Text} (plain : PlainWord text) (nonempty : text ≠ [])
    (ends : ∀ c ∈ follow.head?, isSpace c = true) :
    readWord (text ++ follow) =
      if text = ['a'] then some (.isA, follow)
      else
        match splitOnce ':' text with
        | some (label, localName) =>
            if label = ['_'] then some (.blankLabel localName, follow)
            else some (.name (.prefixed label localName), follow)
        | none => some (.bare text, follow) := by
  rw [readWord, word_plain plain ends]
  simp [nonempty]

/-- A word starts with none of the characters that start other tokens. -/
theorem readToken_word {text : Text} (plain : PlainWord text) (nonempty : text ≠ []) :
    readToken (text ++ follow) = readWord (text ++ follow) := by
  cases text with
  | nil => contradiction
  | cons c text =>
      obtain ⟨go, unlike⟩ := plain c (by simp)
      have other : c ≠ '<' ∧ c ≠ '[' ∧ c ≠ ';' ∧ c ≠ ',' ∧ c ≠ '"' := by
        refine ⟨?_, ?_, ?_, ?_, ?_⟩ <;> (rintro rfl; contradiction)
      have dot : c ≠ '.' := by
        rintro rfl
        simp at unlike
      have apostrophe : c.toNat ≠ 39 := by
        intro code
        have same : c = Char.ofNat 39 := by rw [← code, Char.ofNat_toNat]
        subst same
        contradiction
      simp [readToken, other, dot, apostrophe]

theorem readToken_text {token : Token} (readable : token.Readable)
    (ends : ∀ c ∈ follow.head?, isSpace c = true) :
    readToken (token.text ++ follow) = some (token, follow) := by
  cases token with
  | name name =>
      cases name with
      | iriRef raw =>
          have named : readName ((Name.iriRef raw).text ++ follow) = some (.iriRef raw, follow) :=
            readName_text readable ends
          rw [Name.text, List.cons_append, List.cons_append] at named
          rw [Token.text, Name.text, List.cons_append, List.cons_append, readToken, if_pos rfl, named]
          rfl
      | prefixed label localName =>
          obtain ⟨plain, first, unblank⟩ := readable
          have long : label ++ ':' :: localName ≠ ['a'] := by
            intro same
            have member : ':' ∈ ['a'] := by simp [← same]
            simp at member
          rw [Token.text, Name.text, readToken_word plain (by simp), readWord_text plain (by simp) ends,
            if_neg long, splitOnce_first first]
          simp [unblank]
  | isA =>
      rw [Token.text, readToken_word (by simp [PlainWord]; decide) (by simp),
        readWord_text (by simp [PlainWord]; decide) (by simp) ends, if_pos rfl]
  | blankLabel label =>
      have plain : PlainWord ('_' :: ':' :: label) := by
        intro c member
        simp only [List.mem_cons] at member
        rcases member with rfl | rfl | member
        · decide
        · decide
        · exact readable c member
      have split : splitOnce ':' ('_' :: ':' :: label) = some (['_'], label) :=
        splitOnce_eq_some_iff.mpr ⟨rfl, by decide⟩
      rw [Token.text, readToken_word plain (by simp), readWord_text plain (by simp) ends,
        if_neg (by simp), split]
      rfl
  | anonymous => simp [Token.text, readToken, isSpace]
  | literal quote raw suffix =>
      obtain ⟨rfl, enclosed, suffixed⟩ := readable
      have short := not_long_quote enclosed (suffix_unquoted suffixed ends)
      have split : (Token.literal .double raw suffix).text ++ follow =
          '"' :: (raw ++ '"' :: (suffix.text ++ follow)) := by
        simp [Token.text, Quote.text]
      have literal : readLiteral .double .longDouble (raw ++ '"' :: (suffix.text ++ follow)) =
          some (.literal .double raw suffix, follow) := by
        rw [readLiteral, if_neg short, readContent, Quote.text, scanLiteral_enclosed enclosed,
          Option.bind_some]
        simp only [readSuffix_text suffixed ends, Option.map_some]
      rw [split, readToken]
      simpa using literal
  | bare raw =>
      obtain ⟨plain, single, nonempty, unlike⟩ := readable
      have whole : splitOnce ':' raw = none := by
        rw [splitOnce, find_eq_none_iff]
        exact fun inside => single (inside.subset (by simp))
      rw [Token.text, readToken_word plain nonempty, readWord_text plain nonempty ends,
        if_neg unlike, whole]
  | semicolon => rfl
  | comma => rfl
  | dot => rfl

theorem text_head {token : Token} (readable : token.Readable) :
    ∃ c rest, token.text = c :: rest ∧ isSpace c = false := by
  have ofPlain : ∀ text : Text, PlainWord text → text ≠ [] →
      ∃ c rest, text = c :: rest ∧ isSpace c = false := by
    intro text plain nonempty
    cases text with
    | nil => contradiction
    | cons c rest =>
        have go := (plain c (by simp)).1
        simp only [isStop, Bool.or_eq_false_iff] at go
        exact ⟨c, rest, rfl, go.1⟩
  cases token with
  | name name =>
      cases name with
      | iriRef raw => exact ⟨'<', _, rfl, rfl⟩
      | prefixed label localName => exact ofPlain _ readable.1 (by simp [Token.text, Name.text])
  | isA => exact ⟨'a', [], rfl, rfl⟩
  | blankLabel label => exact ⟨'_', _, rfl, rfl⟩
  | anonymous => exact ⟨'[', _, rfl, rfl⟩
  | literal quote raw suffix =>
      obtain ⟨rfl, -, -⟩ := readable
      exact ⟨'"', _, rfl, rfl⟩
  | bare raw => exact ofPlain raw readable.1 readable.2.2.1
  | semicolon => exact ⟨';', [], rfl, rfl⟩
  | comma => exact ⟨',', [], rfl, rfl⟩
  | dot => exact ⟨'.', [], rfl, rfl⟩

/-- Tokens that are all readable, with white space behind each but the last. -/
def Spaced : List Written → Prop
  | [] => True
  | [(token, gap)] => token.Readable ∧ ∀ c ∈ gap, isSpace c = true
  | (token, gap) :: rest =>
      token.Readable ∧ gap ≠ [] ∧ (∀ c ∈ gap, isSpace c = true) ∧ Spaced rest

theorem dropWhile_gap {gap rest : Text} (spaces : ∀ c ∈ gap, isSpace c = true) :
    (gap ++ rest).dropWhile isSpace = rest.dropWhile isSpace := by
  induction gap with
  | nil => rfl
  | cons c gap ih =>
      rw [List.cons_append, List.dropWhile_cons_of_pos (spaces c (by simp))]
      exact ih fun d member => spaces d (List.mem_cons_of_mem c member)

/-- Spaced tokens are read back from the text they are written as. -/
theorem tokens_render {written : List Written} (spaced : Spaced written) {fuel : Nat}
    (enough : written.length ≤ fuel) {gap : Text} (spaces : ∀ c ∈ gap, isSpace c = true) :
    tokens fuel (gap ++ render written) = some (written.map Prod.fst) := by
  induction written generalizing fuel gap with
  | nil =>
      have blank : (gap ++ render []).dropWhile isSpace = [] := by
        rw [dropWhile_gap spaces]
        rfl
      cases fuel with
      | zero => rw [tokens, if_pos blank, List.map_nil]
      | succ fuel =>
          rw [tokens, blank]
          rfl
  | cons part rest ih =>
      obtain ⟨token, behind⟩ := part
      obtain ⟨readable, blank, ends, later⟩ : token.Readable ∧ (∀ c ∈ behind, isSpace c = true) ∧
          (∀ c ∈ (behind ++ render rest).head?, isSpace c = true) ∧ Spaced rest := by
        cases rest with
        | nil =>
            refine ⟨spaced.1, spaced.2, ?_, trivial⟩
            intro c head
            rw [render_nil, List.append_nil] at head
            exact spaced.2 c (List.mem_of_mem_head? head)
        | cons next rest =>
            obtain ⟨readable, nonempty, blank, later⟩ := spaced
            refine ⟨readable, blank, ?_, later⟩
            intro c head
            cases behind with
            | nil => contradiction
            | cons d behind =>
                cases head
                exact blank _ (by simp)
      obtain ⟨c, more, starts, visible⟩ := text_head readable
      have start : (gap ++ render ((token, behind) :: rest)).dropWhile isSpace =
          token.text ++ (behind ++ render rest) := by
        rw [dropWhile_gap spaces, render_cons, List.append_assoc, starts]
        simp [visible]
      cases fuel with
      | zero => simp at enough
      | succ fuel =>
          have nonempty : token.text ++ (behind ++ render rest) ≠ [] := by simp [starts]
          simp only [List.length_cons] at enough
          rw [tokens]
          simp only [start, if_neg nonempty, readToken_text readable ends, Option.bind_some]
          rw [ih later (by omega) blank]
          rfl

theorem length_le_render {written : List Written} (spaced : Spaced written) :
    written.length ≤ (render written).length := by
  induction written with
  | nil => simp
  | cons part rest ih =>
      obtain ⟨token, behind⟩ := part
      obtain ⟨readable, later⟩ : token.Readable ∧ Spaced rest := by
        cases rest with
        | nil => exact ⟨spaced.1, trivial⟩
        | cons next rest => exact ⟨spaced.1, spaced.2.2.2⟩
      obtain ⟨c, more, starts, -⟩ := text_head readable
      have tail := ih later
      rw [render_cons, starts]
      simp only [List.length_append, List.length_cons]
      omega

/-- A text that is written with white space between its tokens is read as what they denote. -/
theorem read_render {written : List Written} (prefixes : Prefixes) (spaced : Spaced written) :
    read prefixes (render written) = statement prefixes (written.map Prod.fst) := by
  have found : tokens (render written).length ([] ++ render written) =
      some (written.map Prod.fst) :=
    tokens_render spaced (length_le_render spaced) (by simp)
  rw [List.nil_append] at found
  rw [read, found, Option.bind_some]

end WrittenBack

end Turtle
