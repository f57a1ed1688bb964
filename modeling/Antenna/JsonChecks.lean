import Antenna.JsonCore

/-!
What the JSON helpers make of string literals: the encoder's are read back, and those of other
encoders exactly if they have none of the escapes that the reader does not know.
-/

namespace LeanAntenna

open Text Json

section Pieces

/-- What the reader makes of a piece. -/
def readPiece : Piece → Text
  | .plain c => [c]
  | .escape kind => [jsonEscaped kind.letter]
  | .unicode digits => unicodeEscape digits
  | .pair high low => unicodeEscape high ++ unicodeEscape low

/-- The pieces that the reader knows. -/
def Known : Piece → Prop
  | .plain _ => True
  | .escape kind => kind ≠ .backspace ∧ kind ≠ .formFeed
  | .unicode _ => True
  | .pair _ _ => False

theorem readJson_unicode (out : Text) {digits : Text} (four : digits.length = 4) (rest : Text) :
    readJson out ('\\' :: 'u' :: (digits ++ rest)) = readJson (out ++ unicodeEscape digits) rest := by
  rw [readJson, List.take_left' four, List.drop_left' four]

theorem readJson_escape (out : Text) {c : Char} (other : c ≠ 'u') (rest : Text) :
    readJson out ('\\' :: c :: rest) = readJson (out ++ [jsonEscaped c]) rest := by
  rw [readJson]
  exact other

theorem readJson_plain (out : Text) {c : Char} (plain : c ∉ ['"', '\\']) (rest : Text) :
    readJson out (c :: rest) = readJson (out ++ [c]) rest := by
  simp only [List.mem_cons, List.not_mem_nil, or_false, not_or] at plain
  rw [readJson]
  · exact plain.1
  · rintro rfl
    exact absurd rfl plain.2
  · rintro more rfl
    exact absurd rfl plain.2
  · rintro d more rfl
    exact absurd rfl plain.2

theorem readJson_piece (out : Text) {piece : Piece} (legal : piece.Legal) (rest : Text) :
    readJson out (piece.text ++ rest) = readJson (out ++ readPiece piece) rest := by
  cases piece with
  | plain c => exact readJson_plain out legal.2 rest
  | escape kind =>
      have other : kind.letter ≠ 'u' := by cases kind <;> decide
      exact readJson_escape out other rest
  | unicode digits =>
      obtain ⟨unit, known⟩ := Option.isSome_iff_exists.mp legal
      exact readJson_unicode out (codeUnit_length known) rest
  | pair high low =>
      obtain ⟨⟨first, firstKnown, -⟩, second, secondKnown, -⟩ := legal
      have split : (Piece.pair high low).text ++ rest =
          '\\' :: 'u' :: (high ++ '\\' :: 'u' :: (low ++ rest)) := by
        simp [Piece.text]
      rw [split, readJson_unicode out (codeUnit_length firstKnown),
        readJson_unicode _ (codeUnit_length secondKnown), List.append_assoc]
      rfl

theorem readJson_content (out : Text) {pieces : List Piece} (legal : ∀ piece ∈ pieces, piece.Legal)
    (rest : Text) :
    readJson out (content pieces ++ rest) = readJson (out ++ pieces.flatMap readPiece) rest := by
  induction pieces generalizing out with
  | nil => simp [content]
  | cons piece pieces ih =>
      have first := legal piece List.mem_cons_self
      rw [content, List.flatMap_cons, List.append_assoc, readJson_piece out first, List.flatMap_cons,
        ← List.append_assoc]
      exact ih _ fun other member => legal other (List.mem_cons_of_mem _ member)

theorem fromHex_codeUnit {digits : Text} {unit : Nat} (denotes : codeUnit digits = some unit) :
    fromHex digits = some unit := by
  have four := codeUnit_length denotes
  rw [codeUnit, if_pos four] at denotes
  cases digits with
  | nil => cases four
  | cons c digits =>
      have unsigned : c ≠ '+' := by
        rintro rfl
        have refused : Turtle.hexValue '+' = none := by decide
        simp [List.mapM_cons, refused] at denotes
      have head : (c :: digits).head? ≠ some '+' := by simpa using unsigned
      rw [fromHex, if_neg head, if_neg (List.cons_ne_nil c digits)]
      exact denotes

/-- A unit that is no surrogate is read as its character, and a surrogate as nothing. -/
theorem unicodeEscape_codeUnit {digits : Text} {unit : Nat} (denotes : codeUnit digits = some unit) :
    unicodeEscape digits =
      if unit < 0xD800 ∨ 0xDFFF < unit then [Char.ofNat unit] else [] := by
  obtain ⟨a, b, c, d, -, value, bounds⟩ := codeUnit_digits denotes
  have small : unit < 0x110000 := by omega
  have scalar : (unit < 0xD800 ∨ (0xDFFF < unit ∧ unit < 0x110000)) ↔
      (unit < 0xD800 ∨ 0xDFFF < unit) := by omega
  rw [unicodeEscape, fromHex_codeUnit denotes]
  simp only [scalar]

theorem readPiece_char {piece : Piece} {c : Char} (legal : piece.Legal) (denotes : piece.char = some c) :
    (Known piece → readPiece piece = [c]) ∧
      (¬ Known piece → readPiece piece = [] ∨ ∃ d, readPiece piece = [d] ∧ d ≠ c) := by
  cases piece with
  | plain plain =>
      cases denotes
      exact ⟨fun _ => rfl, fun unknown => absurd trivial unknown⟩
  | escape kind =>
      cases denotes
      have read : ∀ kind : Escape, kind ≠ .backspace ∧ kind ≠ .formFeed → jsonEscaped kind.letter = kind.char := by
        intro kind known
        cases kind <;> first | rfl | simp at known
      have unread : ∀ kind : Escape, ¬ (kind ≠ .backspace ∧ kind ≠ .formFeed) →
          jsonEscaped kind.letter ≠ kind.char := by
        intro kind unknown
        cases kind <;> first | decide | simp at unknown
      refine ⟨fun known => ?_, fun unknown => Or.inr ⟨_, rfl, unread kind unknown⟩⟩
      rw [readPiece, read kind known]
  | unicode digits =>
      obtain ⟨unit, known⟩ := Option.isSome_iff_exists.mp legal
      rw [Piece.char, known, Option.bind_some] at denotes
      refine ⟨fun _ => ?_, fun unknown => absurd trivial unknown⟩
      rw [readPiece, unicodeEscape_codeUnit known]
      split at denotes
      · rename_i scalar
        cases denotes
        rw [if_pos scalar]
      · cases denotes
  | pair high low =>
      obtain ⟨⟨first, firstKnown, firstLeast, firstMost⟩, second, secondKnown, secondLeast, secondMost⟩ :=
        legal
      refine ⟨fun known => absurd known id, fun _ => Or.inl ?_⟩
      rw [readPiece, unicodeEscape_codeUnit firstKnown, unicodeEscape_codeUnit secondKnown,
        if_neg (by omega), if_neg (by omega), List.nil_append]

theorem readPieces_length {pieces : List Piece} {value : Text} (denotes : Denotes pieces value) :
    (pieces.flatMap readPiece).length ≤ value.length := by
  induction pieces generalizing value with
  | nil => simp
  | cons piece pieces ih =>
      obtain ⟨c, rest, rfl, legal, char, later⟩ := denotes_cons.mp denotes
      have short : (readPiece piece).length ≤ 1 := by
        by_cases known : Known piece
        · rw [(readPiece_char legal char).1 known]
          rfl
        · rcases (readPiece_char legal char).2 known with nothing | ⟨d, one, -⟩
          · rw [nothing]
            exact Nat.zero_le 1
          · rw [one]
            rfl
      have bound := ih later
      rw [List.flatMap_cons, List.length_append, List.length_cons]
      omega

/-- The reader gets the denoted text exactly if it knows every piece. -/
theorem readPieces_iff {pieces : List Piece} {value : Text} (denotes : Denotes pieces value) :
    pieces.flatMap readPiece = value ↔ ∀ piece ∈ pieces, Known piece := by
  induction pieces generalizing value with
  | nil =>
      have empty : value = [] := by simpa using denotes.chars.symm
      simp [empty]
  | cons piece pieces ih =>
      obtain ⟨c, rest, rfl, legal, char, later⟩ := denotes_cons.mp denotes
      rw [List.flatMap_cons, List.forall_mem_cons]
      by_cases known : Known piece
      · rw [(readPiece_char legal char).1 known, List.singleton_append, List.cons_inj_right, ih later]
        exact ⟨fun others => ⟨known, others⟩, fun both => both.2⟩
      · refine iff_of_false (fun same => ?_) fun both => known both.1
        rcases (readPiece_char legal char).2 known with nothing | ⟨d, one, other⟩
        · have bound := readPieces_length later
          rw [nothing, List.nil_append] at same
          rw [same, List.length_cons] at bound
          omega
        · rw [one, List.singleton_append] at same
          exact other (List.cons.inj same).1

theorem parseJsonString_content {pieces : List Piece} (legal : ∀ piece ∈ pieces, piece.Legal)
    (rest : Text) :
    parseJsonString ('"' :: content pieces ++ '"' :: rest) = .ok (pieces.flatMap readPiece) := by
  rw [List.cons_append, parseJsonString, readJson_content [] legal, readJson, List.nil_append]

end Pieces

section Encoder

/-- The piece that the encoder writes for a character. -/
def escapePiece (c : Char) : Piece :=
  match c with
  | '"' => .escape .quote
  | '\\' => .escape .backslash
  | '\n' => .escape .lineFeed
  | '\r' => .escape .carriageReturn
  | '\t' => .escape .tab
  | other => if other.toNat < 0x20 then .unicode (hexFour other.toNat) else .plain other

theorem codeUnit_control {value : Nat} (control : value < 0x20) :
    codeUnit (hexFour value) = some value := by
  have all : ∀ value < 0x20, codeUnit (hexFour value) = some value := by decide
  exact all value control

theorem escapePiece_spec (c : Char) :
    (escapePiece c).text = jsonEscapeChar c ∧ (escapePiece c).Legal ∧ (escapePiece c).char = some c ∧
      Known (escapePiece c) := by
  unfold escapePiece
  split
  · exact ⟨rfl, trivial, rfl, by decide, by decide⟩
  · exact ⟨rfl, trivial, rfl, by decide, by decide⟩
  · exact ⟨rfl, trivial, rfl, by decide, by decide⟩
  · exact ⟨rfl, trivial, rfl, by decide, by decide⟩
  · exact ⟨rfl, trivial, rfl, by decide, by decide⟩
  · rename_i quote backslash feed ret tab
    have written : jsonEscapeChar c =
        if c.toNat < 0x20 then '\\' :: 'u' :: hexFour c.toNat else [c] := by
      rw [jsonEscapeChar] <;> assumption
    rw [written]
    by_cases control : c.toNat < 0x20
    · have unit := codeUnit_control control
      rw [if_pos control, if_pos control]
      refine ⟨rfl, by rw [Piece.Legal, unit]; rfl, ?_, trivial⟩
      rw [Piece.char, unit, Option.bind_some, if_pos (by omega), Char.ofNat_toNat]
    · rw [if_neg control, if_neg control]
      refine ⟨rfl, ⟨by omega, ?_⟩, rfl, trivial⟩
      simp only [List.mem_cons, List.not_mem_nil, or_false, not_or]
      exact ⟨quote, backslash⟩

theorem jsonEscape_literal (text : Text) : jsonEscape text = literal (text.map escapePiece) := by
  have same : (text.map escapePiece).flatMap Piece.text = text.flatMap jsonEscapeChar := by
    rw [List.flatMap_map]
    exact List.flatMap_congr fun c _ => (escapePiece_spec c).1
  rw [jsonEscape, literal, content, same]

theorem jsonEscape_denotes (text : Text) : Denotes (text.map escapePiece) text := by
  refine ⟨fun piece member => ?_, ?_⟩
  · obtain ⟨c, -, rfl⟩ := List.mem_map.mp member
    exact (escapePiece_spec c).2.1
  · rw [List.map_map]
    exact List.map_congr_left fun c _ => (escapePiece_spec c).2.2.1

/-- What the encoder writes is a literal for the text, and the reader gets the text back whatever
follows. -/
theorem json_round_trip (text rest : Text) :
    (∃ pieces, jsonEscape text = literal pieces ∧ Denotes pieces text) ∧
      parseJsonString (jsonEscape text ++ rest) = .ok text := by
  have denotes := jsonEscape_denotes text
  refine ⟨⟨_, jsonEscape_literal text, denotes⟩, ?_⟩
  have known : ∀ piece ∈ text.map escapePiece, Known piece := by
    intro piece member
    obtain ⟨c, -, rfl⟩ := List.mem_map.mp member
    exact (escapePiece_spec c).2.2.2
  have whole : jsonEscape text ++ rest =
      '"' :: content (text.map escapePiece) ++ '"' :: rest := by
    rw [jsonEscape_literal, literal, List.append_assoc]
    rfl
  rw [whole, parseJsonString_content denotes.legal, (readPieces_iff denotes).mpr known]

end Encoder

section Foreign

/-- A body without a closing quote: behind some pieces there is no quote any more. -/
def Unclosed (body : Text) : Prop :=
  ∃ pieces tail, (∀ piece ∈ pieces, piece.Legal) ∧ '"' ∉ tail ∧ body = content pieces ++ tail

theorem readJson_unquoted (out : Text) {tail : Text} (unquoted : '"' ∉ tail) :
    ∃ reason, readJson out tail = .error reason := by
  fun_induction readJson out tail with
  | case1 => exact ⟨_, rfl⟩
  | case2 => simp at unquoted
  | case3 => exact ⟨_, rfl⟩
  | case4 out rest ih =>
      exact ih fun member => unquoted (by simp [List.mem_of_mem_drop member])
  | case5 out c rest _ ih => exact ih fun member => unquoted (by simp [member])
  | case6 out c rest _ _ _ _ ih => exact ih fun member => unquoted (List.mem_cons_of_mem _ member)

theorem parseJsonString_unclosed {body : Text} (unclosed : Unclosed body) :
    ∃ reason, parseJsonString ('"' :: body) = .error reason := by
  obtain ⟨pieces, tail, legal, unquoted, rfl⟩ := unclosed
  rw [parseJsonString, readJson_content [] legal]
  exact readJson_unquoted _ unquoted

/-- A literal is read as what it denotes exactly if it has no backspace, no form feed and no pair of
surrogates as escapes; a literal without its closing quote is refused. -/
theorem parseJsonString_denoted_iff (pieces : List Piece) (value rest body : Text)
    (denotes : Denotes pieces value) :
    (parseJsonString (literal pieces ++ rest) = .ok value ↔ ∀ piece ∈ pieces, Known piece) ∧
      (Unclosed body → ∃ reason, parseJsonString ('"' :: body) = .error reason) := by
  refine ⟨?_, parseJsonString_unclosed⟩
  have whole : literal pieces ++ rest = '"' :: content pieces ++ '"' :: rest := by
    rw [literal, List.append_assoc]
    rfl
  rw [whole, parseJsonString_content denotes.legal, ← readPieces_iff denotes]
  constructor
  · exact Except.ok.inj
  · exact congrArg Except.ok

/-- A smiling face as a pair, then a backspace. -/
def foreignPieces : List Piece := [.pair "D83D".toList "DE00".toList, .escape .backspace]

/-- The face is dropped, and the backspace becomes a question mark. -/
theorem foreign_escapes_lost :
    Denotes foreignPieces [Char.ofNat 0x1F600, Char.ofNat 8] ∧
      parseJsonString (literal foreignPieces) = .ok ['?'] := by
  have legal : ∀ piece ∈ foreignPieces, piece.Legal := by
    intro piece member
    rcases List.mem_pair.mp member with rfl | rfl
    · exact ⟨⟨0xD83D, by decide⟩, 0xDE00, by decide⟩
    · exact trivial
  have read := parseJsonString_content legal []
  refine ⟨⟨legal, by decide⟩, ?_⟩
  have known : foreignPieces.flatMap readPiece = ['?'] := by decide
  rw [literal, read, known]

theorem parseJsonString_denoted_plain :
    (parseJsonString (literal [.plain 'A', .escape .tab] ++ []) = .ok ['A', '\t'] ↔
        ∀ piece ∈ [Piece.plain 'A', .escape .tab], Known piece) ∧
      (Unclosed ['A'] → ∃ reason, parseJsonString ('"' :: ['A']) = .error reason) := by
  have legal : ∀ piece ∈ [Piece.plain 'A', .escape .tab], piece.Legal := by
    intro piece member
    rcases List.mem_pair.mp member with rfl | rfl
    · exact ⟨by decide, by decide⟩
    · exact trivial
  exact parseJsonString_denoted_iff _ _ [] ['A'] ⟨legal, by decide⟩

end Foreign

end LeanAntenna
