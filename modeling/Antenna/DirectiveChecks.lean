import Antenna.LineStorage

/-!
Whether leading directives change what a data line means: the router drops them, and the store reads
the statement with its own prefixes and without a base.
-/

namespace LeanAntenna

open Text Turtle Rdf

/-- A line of legal directives and a statement behind them. -/
structure DirectiveLine where
  lead : Text
  directives : List WrittenDirective
  statement : Text
  blank : ∀ c ∈ lead, isSpace c = true
  nonempty : directives ≠ []
  legal : ∀ written ∈ directives, written.Legal
  begins : trimStart statement ≠ []
  undirected : (trimStart statement).head? ≠ some '@'

namespace DirectiveLine

def text (line : DirectiveLine) : Text :=
  line.lead ++ (line.directives.flatMap WrittenDirective.text ++ line.statement)

variable (line : DirectiveLine)

theorem visible : line.text ≠ [] ∧ line.text.head? ≠ some '#' := by
  obtain ⟨lead, directives, statement, blank, nonempty, -, -, -⟩ := line
  cases directives with
  | nil => contradiction
  | cons written directives =>
      cases lead with
      | nil =>
          obtain ⟨-, starts⟩ := text_starts written (directives.flatMap WrittenDirective.text ++ statement)
          rw [← List.append_assoc, ← List.flatMap_cons] at starts
          constructor
          · intro empty
            rw [text, List.nil_append] at empty
            rw [empty] at starts
            cases starts
          · rw [text, List.nil_append, starts]
            decide
      | cons c lead =>
          have space := blank c List.mem_cons_self
          constructor
          · simp [text]
          · intro hash
            cases hash
            cases space

end DirectiveLine

section Meaning

variable {Carrier : Type} {grammar : Grammar} {load : Graph → Text → Graph × Except Text Unit}
  {host : Host Graph Carrier}

end Meaning

end LeanAntenna
