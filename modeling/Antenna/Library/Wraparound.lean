import Mathlib.Data.Nat.ModEq

/-! Free-running counters that wrap at `modulus`, reduced modulo `size` to index a buffer. -/

namespace Wraparound

variable {modulus size base count : Nat}

/-- The `count` counter values from `base` on have different indices. -/
def Apart (modulus size base count : Nat) : Prop :=
  ∀ low high, low < high → high < count →
    (base + low) % modulus % size ≠ (base + high) % modulus % size

theorem mod_ne_of_near {left right : Nat} (before : left < right) (near : right < left + size) :
    left % size ≠ right % size := by
  intro same
  have divides : size ∣ right - left := (Nat.modEq_iff_dvd' (Nat.le_of_lt before)).mp same
  have := Nat.le_of_dvd (by omega) divides
  omega

theorem add_mod_cases (modulus base offset : Nat) (near : offset < modulus) :
    (base % modulus + offset < modulus ∧ (base + offset) % modulus = base % modulus + offset) ∨
      (modulus ≤ base % modulus + offset ∧
        (base + offset) % modulus = base % modulus + offset - modulus) := by
  have below := Nat.mod_lt base (show 0 < modulus by omega)
  have split : (base + offset) % modulus = (base % modulus + offset) % modulus := by
    rw [Nat.add_mod, Nat.mod_eq_of_lt near]
  rw [split]
  by_cases inside : base % modulus + offset < modulus
  · exact .inl ⟨inside, Nat.mod_eq_of_lt inside⟩
  · refine .inr ⟨by omega, ?_⟩
    rw [Nat.mod_eq_sub_mod (by omega), Nat.mod_eq_of_lt (by omega)]

theorem apart_of_dvd (divides : size ∣ modulus) (bound : count ≤ size) :
    Apart modulus size base count := by
  intro low high before inside
  rw [Nat.mod_mod_of_dvd _ divides, Nat.mod_mod_of_dvd _ divides]
  exact mod_ne_of_near (by omega) (by omega)

theorem apart_of_below (bound : count ≤ size) (below : base % modulus + count ≤ modulus) :
    Apart modulus size base count := by
  intro low high before inside
  have unwrapped : ∀ offset, offset < count → (base + offset) % modulus = base % modulus + offset := by
    intro offset within
    rcases add_mod_cases modulus base offset (by omega) with ⟨_, same⟩ | ⟨_, _⟩
    · exact same
    · omega
  rw [unwrapped low (by omega), unwrapped high inside]
  exact mod_ne_of_near (by omega) (by omega)

/-- The last `modulus % size` values in front of the wrap have their offsets as indices. -/
theorem mod_near_end {value : Nat} (behind : modulus - modulus % size ≤ value)
    (ahead : value < modulus) (positive : 0 < size) :
    value % size = value - (modulus - modulus % size) := by
  have whole := Nat.div_add_mod modulus size
  have residue := Nat.mod_lt modulus positive
  have split : value = value - (modulus - modulus % size) + size * (modulus / size) := by omega
  conv => lhs; rw [split]
  rw [Nat.add_mul_mod_self_left, Nat.mod_eq_of_lt (by omega)]

theorem apart_of_short (bound : count ≤ modulus % size) (positive : 0 < size)
    (fits : size ≤ modulus) : Apart modulus size base count := by
  intro low high before inside
  have residue := Nat.mod_lt modulus positive
  have below := Nat.mod_lt base (show 0 < modulus by omega)
  rcases add_mod_cases modulus base low (by omega) with ⟨_, lowIs⟩ | ⟨_, lowIs⟩ <;>
    rcases add_mod_cases modulus base high (by omega) with ⟨_, highIs⟩ | ⟨_, highIs⟩
  · rw [lowIs, highIs]
    exact mod_ne_of_near (by omega) (by omega)
  · -- the window straddles the wrap
    have lowIndex := @mod_near_end modulus size (base % modulus + low) (by omega) (by omega) positive
    have highIndex : (base % modulus + high - modulus) % size = base % modulus + high - modulus :=
      Nat.mod_eq_of_lt (by omega)
    rw [lowIs, highIs, lowIndex, highIndex]
    omega
  · omega
  · rw [lowIs, highIs]
    exact mod_ne_of_near (by omega) (by omega)

/-- A window that reaches across the wrap and is longer than the residue has two values at that
distance with the same index. -/
theorem exists_collision (positive : 0 < size) (fits : size ≤ modulus)
    (misfit : ¬size ∣ modulus) (wraps : modulus < base % modulus + count)
    (long : modulus % size < count) (bound : count ≤ size) : ¬Apart modulus size base count := by
  have residue := Nat.mod_lt modulus positive
  have nonzero : modulus % size ≠ 0 := fun zero => misfit (Nat.dvd_of_mod_eq_zero zero)
  have below := Nat.mod_lt base (show 0 < modulus by omega)
  intro apart
  by_cases early : base % modulus + modulus % size ≤ modulus
  · have differs := apart (modulus - modulus % size - base % modulus) (modulus - base % modulus)
      (by omega) (by omega)
    rcases add_mod_cases modulus base (modulus - modulus % size - base % modulus) (by omega) with
      ⟨_, lowIs⟩ | ⟨_, lowIs⟩
    · have highIs : (base + (modulus - base % modulus)) % modulus = 0 := by
        have whole := Nat.div_add_mod base modulus
        have split : base + (modulus - base % modulus) = modulus * (base / modulus + 1) := by
          rw [Nat.mul_add]
          omega
        rw [split, Nat.mul_mod_right]
      rw [lowIs, highIs, Nat.zero_mod] at differs
      have lowIndex := @mod_near_end modulus size
        (base % modulus + (modulus - modulus % size - base % modulus)) (by omega) (by omega) positive
      omega
    · omega
  · have differs := apart 0 (modulus % size) (by omega) long
    rcases add_mod_cases modulus base (modulus % size) (by omega) with ⟨_, highIs⟩ | ⟨_, highIs⟩
    · omega
    · have lowIndex := @mod_near_end modulus size (base % modulus) (by omega) below positive
      have highIndex : (base % modulus + modulus % size - modulus) % size =
          base % modulus + modulus % size - modulus := Nat.mod_eq_of_lt (by omega)
      rw [Nat.add_zero, highIs] at differs
      omega

/-- Exactly the windows whose indices are apart. -/
theorem apart_iff (positive : 0 < size) (fits : size ≤ modulus) (bound : count ≤ size) :
    Apart modulus size base count ↔
      size ∣ modulus ∨ base % modulus + count ≤ modulus ∨ count ≤ modulus % size := by
  constructor
  · intro apart
    by_contra outside
    rw [not_or, not_or] at outside
    obtain ⟨misfit, wraps, long⟩ := outside
    exact exists_collision positive fits misfit (by omega) (by omega) bound apart
  · rintro (divides | below | short)
    · exact apart_of_dvd divides bound
    · exact apart_of_below bound below
    · exact apart_of_short short positive fits

theorem Apart.mono {less : Nat} (apart : Apart modulus size base count) (shorter : less ≤ count) :
    Apart modulus size base less :=
  fun low high before inside => apart low high before (by omega)

theorem Apart.drop {skipped rest : Nat} (apart : Apart modulus size base (skipped + rest)) :
    Apart modulus size (base + skipped) rest := by
  intro low high before inside
  rw [Nat.add_assoc, Nat.add_assoc]
  exact apart _ _ (by omega) (by omega)

end Wraparound
