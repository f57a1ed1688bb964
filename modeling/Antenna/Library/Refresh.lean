import Mathlib.Data.Set.Basic

/-!
Facts that a source owns, loaded again and again: a load adds the base, drops every fact about a key
that some fact declares, and adds the source.
-/

namespace Refresh

variable {Fact Key : Type} (key : Fact → Key) (declares : Fact → Prop)

def claimed (facts : Set Fact) : Set Key :=
  {owner | ∃ fact ∈ facts, declares fact ∧ key fact = owner}

def refresh (base source facts : Set Fact) : Set Fact :=
  {fact | (fact ∈ facts ∨ fact ∈ base) ∧ key fact ∉ claimed key declares (facts ∪ base)} ∪ source

variable {key declares} {base source facts left right : Set Fact} {fact : Fact}

theorem claimed_union :
    claimed key declares (left ∪ right) = claimed key declares left ∪ claimed key declares right := by
  ext owner
  constructor
  · rintro ⟨fact, inLeft | inRight, declared, same⟩
    · exact Or.inl ⟨fact, inLeft, declared, same⟩
    · exact Or.inr ⟨fact, inRight, declared, same⟩
  · rintro (⟨fact, member, declared, same⟩ | ⟨fact, member, declared, same⟩)
    · exact ⟨fact, Or.inl member, declared, same⟩
    · exact ⟨fact, Or.inr member, declared, same⟩

/-- After a load nothing is declared but by the source. -/
theorem claimed_refresh :
    claimed key declares (refresh key declares base source facts) =
      claimed key declares source := by
  ext owner
  constructor
  · rintro ⟨fact, ⟨held, kept⟩ | loaded, declared, same⟩
    · exact absurd ⟨fact, held, declared, rfl⟩ kept
    · exact ⟨fact, loaded, declared, same⟩
  · rintro ⟨fact, loaded, declared, same⟩
    exact ⟨fact, Or.inr loaded, declared, same⟩

theorem mem_refresh_refresh :
    fact ∈ refresh key declares base source (refresh key declares base source facts) ↔
      (fact ∈ refresh key declares base source facts ∨ fact ∈ base) ∧
          key fact ∉ claimed key declares (source ∪ base) ∨ fact ∈ source := by
  have same : claimed key declares (refresh key declares base source facts ∪ base) =
      claimed key declares (source ∪ base) := by
    rw [claimed_union, claimed_refresh, claimed_union]
  rw [← same]
  exact Iff.rfl

/-- The third load changes nothing. The second one can, where the base tells of a key that was
claimed before the first. -/
theorem refresh_settles :
    refresh key declares base source
        (refresh key declares base source (refresh key declares base source facts)) =
      refresh key declares base source (refresh key declares base source facts) := by
  ext fact
  rw [mem_refresh_refresh, mem_refresh_refresh]
  constructor
  · rintro (⟨(⟨held, -⟩ | loaded) | based, free⟩ | loaded)
    · exact Or.inl ⟨held, free⟩
    · exact Or.inr loaded
    · exact Or.inl ⟨Or.inr based, free⟩
    · exact Or.inr loaded
  · rintro (⟨held, free⟩ | loaded)
    · exact Or.inl ⟨Or.inl (Or.inl ⟨held, free⟩), free⟩
    · exact Or.inr loaded

end Refresh
