import Antenna.Library.Turtle

/-!
JSON string literals: the pieces a literal is written with, and the character that each of them
denotes.
-/

namespace Json

open Turtle (hexValue)

/-- The escapes of one letter. -/
inductive Escape where
  | quote
  | backslash
  | slash
  | backspace
  | formFeed
  | lineFeed
  | carriageReturn
  | tab
deriving DecidableEq, Repr

def Escape.letter : Escape → Char
  | .quote => '"'
  | .backslash => '\\'
  | .slash => '/'
  | .backspace => 'b'
  | .formFeed => 'f'
  | .lineFeed => 'n'
  | .carriageReturn => 'r'
  | .tab => 't'

def Escape.char : Escape → Char
  | .quote => '"'
  | .backslash => '\\'
  | .slash => '/'
  | .backspace => Char.ofNat 8
  | .formFeed => Char.ofNat 12
  | .lineFeed => '\n'
  | .carriageReturn => '\r'
  | .tab => '\t'

/-- A pair is the two escapes of a character above U+FFFF. -/
inductive Piece where
  | plain (c : Char)
  | escape (escape : Escape)
  | unicode (digits : Text)
  | pair (high low : Text)
deriving DecidableEq, Repr

/-- The UTF-16 code unit that four hexadecimal digits stand for. -/
def codeUnit (digits : Text) : Option Nat :=
  if digits.length = 4 then
    (digits.mapM hexValue).map fun values => values.foldl (fun code value => 16 * code + value) 0
  else none

namespace Piece

def text : Piece → Text
  | .plain c => [c]
  | .escape kind => ['\\', kind.letter]
  | .unicode digits => '\\' :: 'u' :: digits
  | .pair high low => '\\' :: 'u' :: high ++ '\\' :: 'u' :: low

/-- The grammar allows the piece. -/
def Legal : Piece → Prop
  | .plain c => 0x20 ≤ c.toNat ∧ c ∉ ['"', '\\']
  | .escape _ => True
  | .unicode digits => (codeUnit digits).isSome = true
  | .pair high low =>
      (∃ unit, codeUnit high = some unit ∧ 0xD800 ≤ unit ∧ unit ≤ 0xDBFF) ∧
        ∃ unit, codeUnit low = some unit ∧ 0xDC00 ≤ unit ∧ unit ≤ 0xDFFF

/-- The character of a legal piece, unless it is half of a pair on its own. -/
def char : Piece → Option Char
  | .plain c => some c
  | .escape kind => some kind.char
  | .unicode digits =>
      (codeUnit digits).bind fun unit =>
        if unit < 0xD800 ∨ 0xDFFF < unit then some (Char.ofNat unit) else none
  | .pair high low =>
      (codeUnit high).bind fun first => (codeUnit low).map fun second =>
        Char.ofNat (0x10000 + 0x400 * (first - 0xD800) + (second - 0xDC00))

end Piece

/-- A literal without its quotes. -/
def content (pieces : List Piece) : Text := pieces.flatMap Piece.text

def literal (pieces : List Piece) : Text := '"' :: content pieces ++ ['"']

/-- Legal pieces that denote the text. -/
structure Denotes (pieces : List Piece) (value : Text) : Prop where
  legal : ∀ piece ∈ pieces, piece.Legal
  chars : pieces.map Piece.char = value.map some

theorem denotes_cons {piece : Piece} {pieces : List Piece} {value : Text} :
    Denotes (piece :: pieces) value ↔
      ∃ c rest, value = c :: rest ∧ piece.Legal ∧ piece.char = some c ∧ Denotes pieces rest := by
  constructor
  · rintro ⟨legal, chars⟩
    cases value with
    | nil => cases chars
    | cons c rest =>
        obtain ⟨first, later⟩ := List.cons.inj chars
        exact ⟨c, rest, rfl, legal piece List.mem_cons_self, first,
          fun other member => legal other (List.mem_cons_of_mem _ member), later⟩
  · rintro ⟨c, rest, rfl, legal, first, later⟩
    refine ⟨fun other member => ?_, ?_⟩
    · rcases List.mem_cons.mp member with rfl | behind
      · exact legal
      · exact later.legal other behind
    · rw [List.map_cons, List.map_cons, first, later.chars]

theorem codeUnit_length {digits : Text} {unit : Nat} (denotes : codeUnit digits = some unit) :
    digits.length = 4 := by
  unfold codeUnit at denotes
  split at denotes
  · assumption
  · cases denotes

theorem hexValue_lt {c : Char} {value : Nat} (digit : hexValue c = some value) : value < 16 := by
  unfold hexValue at digit
  split at digit
  · rename_i decimal
    rw [Char.isDigit, Bool.and_eq_true, decide_eq_true_eq, decide_eq_true_eq] at decimal
    have upper : c.toNat ≤ 57 := decimal.2
    cases digit
    omega
  · split at digit
    · rename_i upper
      have bound : c.toNat ≤ 70 := upper.2
      cases digit
      omega
    · split at digit
      · rename_i lower
        have bound : c.toNat ≤ 102 := lower.2
        cases digit
        omega
      · cases digit

/-- Four digits, one by one. -/
theorem codeUnit_digits {digits : Text} {unit : Nat} (denotes : codeUnit digits = some unit) :
    ∃ a b c d, digits.mapM hexValue = some [a, b, c, d] ∧
      unit = 16 * (16 * (16 * a + b) + c) + d ∧ a < 16 ∧ b < 16 ∧ c < 16 ∧ d < 16 := by
  have four := codeUnit_length denotes
  rw [codeUnit, if_pos four] at denotes
  obtain ⟨values, mapped, folded⟩ := Option.map_eq_some_iff.mp denotes
  obtain ⟨w, x, y, z, rfl⟩ := List.length_eq_four.mp four
  simp only [List.mapM_cons, List.mapM_nil, Option.bind_eq_bind, Option.bind_eq_some_iff,
    Option.pure_def, Option.some.injEq] at mapped
  obtain ⟨a, first, _, ⟨b, second, _, ⟨c, third, _, ⟨d, fourth, _, rfl, rfl⟩, rfl⟩, rfl⟩, rfl⟩ := mapped
  refine ⟨a, b, c, d, ?_, ?_, hexValue_lt first, hexValue_lt second, hexValue_lt third,
    hexValue_lt fourth⟩
  · simp [first, second, third, fourth]
  · rw [← folded]
    simp

theorem codeUnit_unquoted {digits : Text} (known : (codeUnit digits).isSome = true) : '"' ∉ digits := by
  obtain ⟨unit, denotes⟩ := Option.isSome_iff_exists.mp known
  obtain ⟨a, b, c, d, mapped, -⟩ := codeUnit_digits denotes
  intro member
  have digit := Turtle.hexValues_known mapped '"' member
  revert digit
  decide

/-- A quote is the last character of its piece, the escape of a quote. -/
theorem Piece.quoted {piece : Piece} (legal : piece.Legal) (quote : '"' ∈ piece.text) :
    piece = .escape .quote := by
  have marks : '"' ≠ '\\' ∧ '"' ≠ 'u' := by decide
  cases piece with
  | plain c =>
      obtain rfl := List.mem_singleton.mp quote
      exact absurd (by simp) legal.2
  | escape kind =>
      have letter := (List.mem_pair.mp quote).resolve_left marks.1
      cases kind <;> first | rfl | simp [Escape.letter] at letter
  | unicode digits =>
      simp only [text, List.mem_cons, marks.1, marks.2, false_or] at quote
      exact absurd quote (codeUnit_unquoted legal)
  | pair high low =>
      obtain ⟨⟨first, firstKnown, -⟩, second, secondKnown, -⟩ := legal
      simp only [text, List.mem_append, List.mem_cons, marks.1, marks.2, false_or] at quote
      rcases quote with inside | inside
      · exact absurd inside (codeUnit_unquoted (by rw [firstKnown]; rfl))
      · exact absurd inside (codeUnit_unquoted (by rw [secondKnown]; rfl))

/-- A literal is at least as long as its text and has no more quotes. -/
theorem content_sizes {pieces : List Piece} {value : Text} (denotes : Denotes pieces value) :
    value.length ≤ (content pieces).length ∧ (content pieces).count '"' ≤ value.count '"' := by
  induction pieces generalizing value with
  | nil =>
      have empty : value = [] := by simpa using denotes.chars.symm
      simp [empty, content]
  | cons piece pieces ih =>
      obtain ⟨c, rest, rfl, legal, char, later⟩ := denotes_cons.mp denotes
      obtain ⟨longer, quotes⟩ := ih later
      have first : 1 ≤ piece.text.length ∧ piece.text.count '"' ≤ [c].count '"' := by
        refine ⟨?_, ?_⟩
        · cases piece <;> simp [Piece.text]
        · by_cases quote : '"' ∈ piece.text
          · obtain rfl := Piece.quoted legal quote
            cases char
            decide
          · rw [List.count_eq_zero.mpr quote]
            exact Nat.zero_le _
      have split : (c :: rest).count '"' = [c].count '"' + rest.count '"' := by
        rw [← List.singleton_append, List.count_append]
      rw [content, List.flatMap_cons, ← content, List.length_append, List.count_append, split,
        List.length_cons]
      omega

/-- Characters that stand for themselves in a literal. -/
theorem denotes_plain {text : Text} (plain : ∀ c ∈ text, 0x20 ≤ c.toNat ∧ c ∉ ['"', '\\']) :
    Denotes (text.map .plain) text := by
  refine ⟨fun piece member => ?_, by simp [Piece.char]⟩
  obtain ⟨c, inside, rfl⟩ := List.mem_map.mp member
  exact plain c inside

theorem content_plain (text : Text) : content (text.map .plain) = text := by
  rw [content, List.flatMap_map]
  exact List.flatMap_singleton' text

end Json
