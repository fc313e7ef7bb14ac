import Mathlib.Tactic
import MatrixReckoner.Element.Floating

/-!
The rounded quotient, by its distance from the quotient.

* `HalfEven`: an integer is at most half a unit away, and even if it is half a unit away.
* `roundHalfEven_eq_iff`: the rounded quotient is the only such integer.
* `natAbs_roundHalfEven_le`: no integer is nearer to the quotient.
* `roundHalfEven_eq_of_natAbs_le`: a quotient that is no farther away from the rounded quotient is
  rounded to it, too.
* `roundHalfEven_le`, `le_roundHalfEven`: an integer that bounds the quotient bounds it rounded.
-/

namespace MatrixReckoner

/-- The integer is at most half a unit away from `num / den`, and it is even if it is half a unit
away. Distances are measured in units of one over `den`. -/
structure HalfEven (num den r : ℕ) : Prop where
  close : 2 * (r * den - num : ℤ).natAbs ≤ den
  even : 2 * (r * den - num : ℤ).natAbs = den → r % 2 = 0

variable {num num' den r r' : ℕ}

lemma mul_add_le_mul_of_lt (h : r < r') : r * den + den ≤ r' * den := by
  rw [← Nat.succ_mul]
  exact Nat.mul_le_mul_right den h

/-- Two such integers are one: otherwise the quotient is halfway between them, and both are even. -/
lemma HalfEven.unique (hden : 0 < den) (h : HalfEven num den r) (h' : HalfEven num den r') :
    r = r' := by
  have key : ∀ {r r' : ℕ}, HalfEven num den r → HalfEven num den r' → ¬ r < r' := by
    intro r r' ⟨hclose, heven⟩ ⟨hclose', heven'⟩ hlt
    obtain ⟨k, rfl⟩ := Nat.exists_eq_add_of_lt hlt
    have hexpand : ((r + k + 1 : ℕ) * den : ℤ) = r * den + k * den + den := by
      push_cast
      ring
    have hnonneg : (0 : ℤ) ≤ k * den := by positivity
    rw [hexpand] at hclose' heven'
    have hbetween : (k * den : ℤ) = 0 := by omega
    obtain rfl : k = 0 := by
      have hzero := (mul_eq_zero.mp hbetween).resolve_right (by exact_mod_cast hden.ne')
      exact_mod_cast hzero
    have hr := heven (by omega)
    have hr' := heven' (by omega)
    omega
  exact le_antisymm (not_lt.mp (key h' h)) (not_lt.mp (key h h'))

lemma halfEven_roundHalfEven (num : ℕ) (hden : 0 < den) :
    HalfEven num den (roundHalfEven num den) := by
  obtain ⟨hbelow, habove⟩ := roundHalfEven_dist num hden
  have hbelow' : (2 * num : ℤ) ≤ 2 * (roundHalfEven num den * den) + den := by
    have h : (2 * num : ℤ) ≤ (2 * roundHalfEven num den + 1) * den := by exact_mod_cast hbelow
    linarith
  have habove' : 2 * (roundHalfEven num den * den : ℤ) ≤ 2 * num + den := by
    have h : (2 * roundHalfEven num den * den : ℤ) ≤ 2 * num + den := by exact_mod_cast habove
    linarith
  refine ⟨by omega, fun htie => roundHalfEven_even_of_tie ?_⟩
  by_contra hne
  -- away from the middle the distance is that of the remainder from zero or from the denominator
  have hsplit : ((num / den : ℕ) * den + (num % den : ℕ) : ℤ) = num := by
    rw [mul_comm]
    exact_mod_cast Nat.div_add_mod num den
  have hrest := Nat.mod_lt num hden
  rw [roundHalfEven] at htie
  split at htie
  · omega
  · have hnext : ((num / den + 1 : ℕ) * den - num : ℤ) = den - (num % den : ℕ) := by
      rw [Nat.cast_succ, add_mul]
      omega
    rw [if_pos (by omega), hnext] at htie
    omega

/-- The rounded quotient is the only integer that is at most half a unit away, and even at half a
unit. -/
theorem roundHalfEven_eq_iff (hden : 0 < den) : roundHalfEven num den = r ↔ HalfEven num den r := by
  refine ⟨?_, fun h => (halfEven_roundHalfEven num hden).unique hden h⟩
  rintro rfl
  exact halfEven_roundHalfEven num hden

/-- No integer is nearer to the quotient. -/
lemma natAbs_roundHalfEven_le (num : ℕ) (hden : 0 < den) (k : ℕ) :
    (roundHalfEven num den * den - num : ℤ).natAbs ≤ (k * den - num : ℤ).natAbs := by
  have hclose := (halfEven_roundHalfEven num hden).close
  rcases lt_trichotomy k (roundHalfEven num den) with hlt | heq | hlt
  · have hstep : (k * den + den : ℤ) ≤ roundHalfEven num den * den := by
      exact_mod_cast mul_add_le_mul_of_lt hlt
    omega
  · rw [heq]
  · have hstep : (roundHalfEven num den * den + den : ℤ) ≤ k * den := by
      exact_mod_cast mul_add_le_mul_of_lt hlt
    omega

/-- A quotient that is no farther away from the rounded quotient is rounded to it, too. -/
theorem roundHalfEven_eq_of_natAbs_le (hden : 0 < den)
    (h : (roundHalfEven num den * den - num' : ℤ).natAbs ≤
      (roundHalfEven num den * den - num : ℤ).natAbs) :
    roundHalfEven num' den = roundHalfEven num den := by
  obtain ⟨hclose, heven⟩ := halfEven_roundHalfEven num hden
  exact (roundHalfEven_eq_iff hden).mpr ⟨by omega, fun htie => heven (by omega)⟩

lemma roundHalfEven_le (hden : 0 < den) (h : num ≤ r * den) : roundHalfEven num den ≤ r := by
  by_contra hlt
  have hnearest := natAbs_roundHalfEven_le num hden r
  have hstep : r * den + den ≤ roundHalfEven num den * den :=
    mul_add_le_mul_of_lt (Nat.not_le.mp hlt)
  zify at h hstep
  omega

lemma le_roundHalfEven (hden : 0 < den) (h : r * den ≤ num) : r ≤ roundHalfEven num den := by
  by_contra hlt
  have hnearest := natAbs_roundHalfEven_le num hden r
  have hstep : roundHalfEven num den * den + den ≤ r * den :=
    mul_add_le_mul_of_lt (Nat.not_le.mp hlt)
  zify at h hstep
  omega

end MatrixReckoner
