import Antenna.EventReading
import Antenna.PropertyChecks

/-! One literal for all three escapers, and the property scanner as its inverse. -/

namespace LeanAntenna

open Text Turtle

theorem escapeTurtleString_eq_eventEscape (text : Text) :
    escapeTurtleString text = eventEscape text := by
  unfold escapeTurtleString eventEscape
  apply List.flatMap_congr
  intro c _
  unfold escapeTurtleChar escapeChar
  split <;> simp_all

theorem trim_quoted (value after : Text) :
    ∃ rest, trim ('"' :: value ++ '"' :: after) = '"' :: value ++ '"' :: rest := by
  have visible : isWhitespace '"' = false := by decide
  rw [trim, List.cons_append, trimStart_cons visible]
  exact trimEnd_visible ('"' :: value) after visible

/-- Behind the first place of a name the scanner reads back what stands between the quotes. -/
theorem extractProperty_quoted {before name value after : Text} (single : ' ' ∉ name)
    (fresh : ¬ name ++ [' '] <:+: before) (enclosed : Enclosed value) (nonempty : value ≠ []) :
    extractProperty (before ++ name ++ " \"".toList ++ value ++ "\"".toList ++ after) name =
      some value := by
  have framed : before ++ name ++ " \"".toList ++ value ++ "\"".toList ++ after =
      before ++ (name ++ [' ']) ++ ('"' :: value ++ '"' :: after) := by simp
  obtain ⟨rest, trimmed⟩ := trim_quoted value after
  rw [extractProperty, framed, find_marked single fresh, Option.bind_some, trimmed,
    valueAt_quoted enclosed, if_neg nonempty]

/-- The three escapers write the same text; between quotes it is a one-line literal that denotes
what was escaped, and the scanner reads it back. -/
theorem escapers_framing (text : Text) :
    (turtleEscape text = eventEscape text ∧ escapeTurtleString text = eventEscape text) ∧
    (readToken ('"' :: turtleEscape text ++ ['"']) =
        some (.literal .double (turtleEscape text) .plain, []) ∧
      ∀ prefixes index, Token.term prefixes index (.literal .double (turtleEscape text) .plain) =
        some (.literal text .string)) ∧
    (∀ c ∈ turtleEscape text, c ∉ ['\n', '\r']) ∧
    ∀ before name after, text ≠ [] → name ≠ [] → ' ' ∉ name → ¬ name ++ [' '] <:+: before →
      extractProperty
          (before ++ name ++ " \"".toList ++ turtleEscape text ++ "\"".toList ++ after) name =
        some (turtleEscape text) := by
  have writes := quotedToken_writes text
  rw [turtleEscape_eq_eventEscape]
  refine ⟨⟨rfl, escapeTurtleString_eq_eventEscape text⟩, ⟨?_, ?_⟩, eventEscape_oneLine text, ?_⟩
  · have read : readToken ((quotedToken text).text ++ []) = some (quotedToken text, []) :=
      readToken_text writes.readable (by simp)
    simpa [quotedToken, Token.text, Quote.text, Suffix.text] using read
  · exact fun prefixes index => quotedToken_term prefixes index text
  · intro before name after nonempty _ single fresh
    apply extractProperty_quoted single fresh (enclosed_eventEscape text)
    exact fun empty => nonempty (eventEscape_eq_nil.mp empty)

theorem escapers_framing_reaction :
    extractProperty ("[] a carrier:SendReaction ; ".toList ++ "carrier:emoji".toList ++
        " \"".toList ++ turtleEscape "\"ok\"\n".toList ++ "\"".toList ++ " .".toList)
      "carrier:emoji".toList = some (turtleEscape "\"ok\"\n".toList) :=
  (escapers_framing "\"ok\"\n".toList).2.2.2 _ _ _ (by decide) (by decide) (by decide) (by decide)

end LeanAntenna
