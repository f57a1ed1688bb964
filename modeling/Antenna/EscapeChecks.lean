import Antenna.EscapeCore
import Antenna.Library.TurtleReader

/-! What both escapers do: the literal around the escaped text denotes the text, on one line. -/

namespace LeanAntenna

open Text Turtle

theorem escapeChar_eq (c : Char) :
    escapeChar c = if c = '"' then ['\\', '"'] else if c = '\\' then ['\\', '\\']
      else if c = '\n' then ['\\', 'n'] else if c = '\r' then ['\\', 'r'] else [c] := by
  unfold escapeChar
  split <;> simp_all

theorem escapeChar_plain {c : Char} (plain : c ∉ ['"', '\\', '\n', '\r']) : escapeChar c = [c] := by
  simp only [List.mem_cons, List.not_mem_nil, or_false, not_or] at plain
  simp [escapeChar_eq, plain]

theorem turtleEscape_eq_eventEscape (text : Text) : turtleEscape text = eventEscape text := by
  simp only [turtleEscape, replace, eventEscape, List.flatMap_assoc]
  congr 1
  funext c
  rw [escapeChar_eq]
  by_cases backslash : c = '\\'
  · simp [backslash]
  by_cases quote : c = '"'
  · simp [quote]
  by_cases newline : c = '\n'
  · simp [newline]
  by_cases carriage : c = '\r'
  · simp [carriage]
  simp [backslash, quote, newline, carriage]

@[simp] theorem eventEscape_nil : eventEscape [] = [] := rfl

@[simp] theorem eventEscape_cons (c : Char) (text : Text) :
    eventEscape (c :: text) = escapeChar c ++ eventEscape text := rfl

theorem unescape_escapeChar (c : Char) (rest : Text) :
    unescape (escapeChar c ++ rest) = (unescape rest).map (c :: ·) := by
  by_cases special : c ∈ ['"', '\\', '\n', '\r']
  · simp only [List.mem_cons, List.not_mem_nil, or_false] at special
    rcases special with rfl | rfl | rfl | rfl
    all_goals simp [escapeChar, unescape, escapedChar]
  · rw [escapeChar_plain special, List.singleton_append, unescape_plain]
    rintro rfl
    simp at special

/-- The escaped text of a literal denotes the text. -/
theorem unescape_eventEscape (text : Text) : unescape (eventEscape text) = some text := by
  induction text with
  | nil => rfl
  | cons c text ih => rw [eventEscape_cons, unescape_escapeChar, ih, Option.map_some]

theorem eventEscape_injective : Function.Injective eventEscape := by
  intro left right same
  have denoted := congrArg unescape same
  rw [unescape_eventEscape, unescape_eventEscape] at denoted
  exact Option.some.inj denoted

theorem eventEscape_eq_nil {text : Text} : eventEscape text = [] ↔ text = [] :=
  ⟨fun empty => eventEscape_injective empty, fun empty => by rw [empty]; rfl⟩

theorem enclosed_eventEscape (text : Text) : Enclosed (eventEscape text) := by
  induction text with
  | nil => trivial
  | cons c text ih =>
      rw [eventEscape_cons]
      by_cases special : c ∈ ['"', '\\', '\n', '\r']
      · simp only [List.mem_cons, List.not_mem_nil, or_false] at special
        rcases special with rfl | rfl | rfl | rfl
        all_goals simpa [escapeChar, Enclosed] using ih
      · rw [escapeChar_plain special, List.singleton_append, Enclosed]
        · simp only [List.mem_cons, List.not_mem_nil, or_false, not_or] at special
          exact ⟨special.2.1, special.1, ih⟩
        · rintro d more rfl
          simp at special

theorem enclosed_behind : ∀ (front : Text) {rest : Text} {c : Char}, c ≠ '\\' →
    Enclosed (front ++ c :: rest) → Enclosed rest
  | [], rest, c, plain, enclosed => by
      rw [List.nil_append, Enclosed] at enclosed
      · exact enclosed.2.2
      · rintro d more rfl
        exact absurd rfl plain
  | [d], rest, c, plain, enclosed => by
      by_cases backslash : d = '\\'
      · subst backslash
        exact enclosed
      · rw [List.singleton_append, Enclosed] at enclosed
        · exact enclosed_behind [] plain enclosed.2.2
        · rintro e more rfl
          exact absurd rfl backslash
  | d :: e :: front, rest, c, plain, enclosed => by
      by_cases backslash : d = '\\'
      · subst backslash
        exact enclosed_behind front plain enclosed
      · rw [List.cons_append, Enclosed] at enclosed
        · exact enclosed_behind (e :: front) plain enclosed.2.2
        · rintro e more rfl
          exact absurd rfl backslash

theorem enclosed_append {blank rest : Text} (plain : '\\' ∉ blank)
    (enclosed : Enclosed (blank ++ rest)) : Enclosed rest := by
  induction blank with
  | nil => exact enclosed
  | cons c blank ih =>
      have differs : c ≠ '\\' := fun same => plain (by simp [same])
      exact ih (fun inside => plain (List.mem_cons_of_mem c inside))
        (enclosed_behind [] differs enclosed)

theorem escapeChar_special {c : Char} (special : c ∈ ['"', '\\', '\n', '\r']) :
    ∃ d ∈ ['"', '\\', 'n', 'r'], escapeChar c = ['\\', d] := by
  simp only [List.mem_cons, List.not_mem_nil, or_false] at special
  rcases special with rfl | rfl | rfl | rfl <;> exact ⟨_, by decide, rfl⟩

theorem prefix_eventEscape {pattern text : Text} (plain : ∀ c ∈ pattern, c ∉ ['"', '\\'])
    (ahead : pattern <+: eventEscape text) : pattern <+: text := by
  induction text generalizing pattern with
  | nil => exact ahead
  | cons c text ih =>
      cases pattern with
      | nil => exact List.nil_prefix
      | cons d pattern =>
          have unlike := plain d (by simp)
          by_cases special : c ∈ ['"', '\\', '\n', '\r']
          · obtain ⟨e, -, escaped⟩ := escapeChar_special special
            rw [eventEscape_cons, escaped, List.cons_append, List.cons_prefix_cons] at ahead
            simp [ahead.1] at unlike
          · rw [eventEscape_cons, escapeChar_plain special, List.singleton_append,
              List.cons_prefix_cons] at ahead
            rw [List.cons_prefix_cons]
            exact ⟨ahead.1, ih (fun e member => plain e (List.mem_cons_of_mem d member)) ahead.2⟩

/-- A pattern without the characters of an escape stands in the escaped text where it stands in the
text. -/
theorem infix_eventEscape {pattern text : Text} (plain : ∀ c ∈ pattern, c ∉ ['"', '\\'])
    (starts : ∀ c ∈ pattern.head?, c ∉ ['n', 'r']) (inside : pattern <:+: eventEscape text) :
    pattern <:+: text := by
  cases pattern with
  | nil => exact List.nil_infix
  | cons first pattern =>
      have unlike := plain first (by simp)
      have unescaped := starts first rfl
      induction text with
      | nil => exact inside
      | cons c text ih =>
          by_cases special : c ∈ ['"', '\\', '\n', '\r']
          · obtain ⟨d, listed, escaped⟩ := escapeChar_special special
            rw [eventEscape_cons, escaped, List.cons_append, List.singleton_append] at inside
            rcases List.infix_cons_iff.mp inside with ahead | inside
            · simp [(List.cons_prefix_cons.mp ahead).1] at unlike
            rcases List.infix_cons_iff.mp inside with ahead | later
            · rw [(List.cons_prefix_cons.mp ahead).1] at unlike unescaped
              simp only [List.mem_cons, List.not_mem_nil, or_false] at listed unlike unescaped
              tauto
            · exact (ih later).trans (List.suffix_cons c text).isInfix
          · rw [eventEscape_cons, escapeChar_plain special, List.singleton_append] at inside
            rcases List.infix_cons_iff.mp inside with ahead | later
            · refine (prefix_eventEscape plain ?_).isInfix
              rwa [eventEscape_cons, escapeChar_plain special]
            · exact (ih later).trans (List.suffix_cons c text).isInfix

theorem eventEscape_append (left right : Text) :
    eventEscape (left ++ right) = eventEscape left ++ eventEscape right := List.flatMap_append

/-- A text that needs no escapes. -/
def Unescaped (text : Text) : Prop := ∀ c ∈ text, c ∉ ['"', '\\', '\n', '\r']

instance (text : Text) : Decidable (Unescaped text) :=
  inferInstanceAs (Decidable (∀ c ∈ text, _))

theorem length_le_eventEscape (text : Text) : text.length ≤ (eventEscape text).length := by
  induction text with
  | nil => simp
  | cons c text ih =>
      rw [eventEscape_cons, escapeChar_eq]
      repeat' split
      all_goals simp only [List.length_cons, List.length_append, List.length_nil]; omega

theorem eventEscape_eq_self_iff {text : Text} : eventEscape text = text ↔ Unescaped text := by
  induction text with
  | nil => simp [Unescaped]
  | cons c text ih =>
      by_cases special : c ∈ ['"', '\\', '\n', '\r']
      · constructor
        · intro same
          simp only [List.mem_cons, List.not_mem_nil, or_false] at special
          have longer := length_le_eventEscape text
          have size := congrArg List.length same
          rcases special with rfl | rfl | rfl | rfl
          all_goals
            simp only [eventEscape_cons, escapeChar, List.length_append, List.length_cons,
              List.length_nil] at size
            omega
        · exact fun unescaped => absurd special (unescaped c (by simp))
      · rw [eventEscape_cons, escapeChar_plain special, List.singleton_append, List.cons_inj_right, ih]
        simp [Unescaped] at special ⊢
        tauto

theorem infix_eventEscape_iff {pattern text : Text} (plain : Unescaped pattern)
    (starts : ∀ c ∈ pattern.head?, c ∉ ['n', 'r']) :
    pattern <:+: eventEscape text ↔ pattern <:+: text := by
  constructor
  · refine infix_eventEscape (fun c member listed => plain c member ?_) starts
    simp only [List.mem_cons, List.not_mem_nil, or_false] at listed ⊢
    tauto
  · rintro ⟨front, back, rfl⟩
    rw [eventEscape_append, eventEscape_append, eventEscape_eq_self_iff.mpr plain]
    exact ⟨_, _, rfl⟩

end LeanAntenna
