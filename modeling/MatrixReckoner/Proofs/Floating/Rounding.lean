import MatrixReckoner.Proofs.Floating.Canonical

/-!
Rounding to a double keeps the numbers that are doubles.

* `Double.targetExponent_mul_two_pow`: the last place that is kept of a number does not depend on
  how the number is written.
* `Double.roundWithAccuracy_eq`, `Double.round_eq`: a number that is a double, written with another
  exponent, is rounded to itself.
* `Double.Represents.round_eq`, `Double.Represents.normalize`: the same with signs.
-/

namespace MatrixReckoner.Double

open Float.Model (Format UnpackedFloat totalExponent)
open Float.Model.UnpackedFloat

variable {s : Sign} {m : ℕ} {e : ℤ} {hm : 0 < m}

/-! ### The last place -/

lemma targetExponent_eq (m : ℕ) (e : ℤ) :
    Format.binary64.targetExponent (totalExponent m e) = max (m.log2 + e - 52) (-1074) := by
  have hbits : Format.binary64.mantissaBits = 53 := rfl
  have hmin : Format.binary64.minExponent = -1074 := rfl
  rw [Format.targetExponent, totalExponent, hbits, hmin]
  omega

lemma log2_mul_two_pow (hm : 0 < m) (k : ℕ) : (m * 2 ^ k).log2 = m.log2 + k := by
  have hpos : 0 < 2 ^ k := by positivity
  rw [Nat.log2_eq_iff (Nat.mul_ne_zero hm.ne' hpos.ne'), Nat.pow_add, Nat.add_right_comm,
    Nat.pow_add]
  exact ⟨Nat.mul_le_mul_right _ (Nat.log2_self_le hm.ne'),
    (Nat.mul_lt_mul_right hpos).mpr Nat.lt_log2_self⟩

/-- The last place that is kept of a double is its own. -/
lemma targetExponent_of_canonical (hm : 0 < m) (h : Canonical m e) :
    Format.binary64.targetExponent (totalExponent m e) = e := by
  obtain ⟨hlt, hmin, -, hnormal⟩ := h
  have hlog : m.log2 < 53 := (Nat.log2_lt hm.ne').mpr hlt
  rw [targetExponent_eq]
  rcases hnormal with hnormal | rfl
  · have hlog' : 52 ≤ m.log2 := (Nat.le_log2 hm.ne').mpr hnormal
    omega
  · omega

lemma targetExponent_mul_two_pow (hm : 0 < m) (h : Canonical m e) (k : ℕ) :
    Format.binary64.targetExponent (totalExponent (m * 2 ^ k) (e - k)) = e := by
  have htarget := targetExponent_of_canonical hm h
  rw [targetExponent_eq] at htarget ⊢
  rw [log2_mul_two_pow hm]
  omega

/-! ### Magnitudes -/

/-- Zeros that are shifted out leave nothing to round. -/
lemma shiftRight_mul_two_pow (m k : ℕ) :
    ExtendedMantissa.mk (m * 2 ^ k) false false >>> k = ⟨m, false, false⟩ := by
  change Nat.repeat ExtendedMantissa.shiftRightOne k ⟨m * 2 ^ k, false, false⟩ = _
  induction k generalizing m with
  | zero => simp [Nat.repeat]
  | succ k ih =>
      rw [pow_succ', ← mul_assoc, Nat.repeat, ih]
      simp [ExtendedMantissa.shiftRightOne]

lemma shiftToTargetExponent_eq (hm : 0 < m) (h : Canonical m e) (k : ℕ) :
    shiftToTargetExponent Format.binary64 (m * 2 ^ k) (e - k) .exact = (⟨m, false, false⟩, e) := by
  have hshift : (e - (e - k)).toNat = k := by omega
  rw [shiftToTargetExponent, targetExponent_mul_two_pow hm h, shiftToExponent, hshift]
  exact Prod.ext (shiftRight_mul_two_pow m k) (by omega)

lemma shiftToTargetExponent_self (hm : 0 < m) (h : Canonical m e) :
    shiftToTargetExponent Format.binary64 m e .exact = (⟨m, false, false⟩, e) := by
  simpa using shiftToTargetExponent_eq hm h 0

lemma roundWithAccuracy_eq (h : Canonical m e) (k : ℕ) :
    roundWithAccuracy Format.binary64 s (m * 2 ^ k) (e - k) .exact = .finite s m e hm := by
  have hrounded : ExtendedMantissa.roundedMantissa ⟨m, false, false⟩ = m := rfl
  rw [roundWithAccuracy, shiftToTargetExponent_eq hm h]
  simp only [hrounded, shiftToTargetExponent_self hm h, dif_neg hm.ne']

lemma roundWithAccuracy_self (h : Canonical m e) :
    roundWithAccuracy Format.binary64 s m e .exact = .finite s m e hm := by
  simpa using @roundWithAccuracy_eq s m e hm h 0

/-- Of two ways to write a magnitude, the one with the smaller exponent has the other's significand,
shifted. -/
lemma eq_mul_two_pow {m₀ k : ℕ} (h : (m₀ : ℚ) * 2 ^ (e - k) = m * 2 ^ e) : m₀ = m * 2 ^ k := by
  have hpos : (2 : ℚ) ^ (e - k) ≠ 0 := zpow_ne_zero _ two_ne_zero
  have hsplit : (2 : ℚ) ^ e = 2 ^ k * 2 ^ (e - k) := by
    rw [← zpow_natCast, ← zpow_add₀ two_ne_zero]
    congr 1
    omega
  rw [hsplit, ← mul_assoc] at h
  exact_mod_cast mul_right_cancel₀ hpos h

/-- **The magnitude of a double, written in any way, is rounded to itself.** -/
theorem round_eq (h : Canonical m e) {m₀ : ℕ} {e₀ : ℤ} (heq : (m₀ : ℚ) * 2 ^ e₀ = m * 2 ^ e) :
    UnpackedFloat.round Format.binary64 s m₀ e₀ = .finite s m e hm := by
  rcases le_total e₀ e with hle | hle
  · obtain ⟨k, rfl⟩ : ∃ k : ℕ, e₀ = e - k := ⟨(e - e₀).toNat, by omega⟩
    obtain rfl := eq_mul_two_pow heq
    have hshift : (e - k - e).toNat = 0 := by omega
    rw [UnpackedFloat.round, targetExponent_mul_two_pow hm h, decreaseExponent, hshift]
    simp only [Nat.shiftLeft_zero, Nat.cast_zero, sub_zero]
    exact roundWithAccuracy_eq h k
  · obtain ⟨k, rfl⟩ : ∃ k : ℕ, e = e₀ - k := ⟨(e₀ - e).toNat, by omega⟩
    obtain rfl := eq_mul_two_pow heq.symm
    have htarget : Format.binary64.targetExponent (totalExponent m₀ e₀) = e₀ - k := by
      have htarget' := targetExponent_of_canonical hm h
      rw [targetExponent_eq, log2_mul_two_pow (Nat.pos_of_mul_pos_right hm)] at htarget'
      rw [targetExponent_eq]
      omega
    have hshift : (e₀ - (e₀ - k)).toNat = k := by omega
    rw [UnpackedFloat.round, htarget, decreaseExponent, hshift]
    simp only [Nat.shiftLeft_eq]
    exact roundWithAccuracy_self h

/-! ### Signs -/

/-- Signs and magnitudes of equal numbers are equal. -/
lemma sign_eq {s' : Sign} {m' : ℕ} {p p' : ℚ} (hm : 0 < m) (hm' : 0 < m') (hp : 0 < p)
    (hp' : 0 < p') (h : (s.apply m : ℚ) * p = s'.apply m' * p') : s = s' ∧ m * p = m' * p' := by
  have hpos : 0 < (m : ℚ) * p := by positivity
  have hpos' : 0 < (m' : ℚ) * p' := by positivity
  cases s <;> cases s' <;>
    simp only [Sign.apply, Int.cast_neg, Int.cast_natCast, neg_mul, neg_inj] at h
  · exact ⟨rfl, h⟩
  · linarith
  · linarith
  · exact ⟨rfl, h⟩

lemma apply_mul_two_zpow_ne_zero (hm : 0 < m) : (s.apply m : ℚ) * 2 ^ e ≠ 0 := by
  refine mul_ne_zero ?_ (zpow_ne_zero _ two_ne_zero)
  cases s <;> simp [Sign.apply, hm.ne']

namespace Represents

variable {u : UnpackedFloat}

lemma exists_eq_zero (h : Represents u 0) : ∃ s, u = .zero s := by
  generalize hr : (0 : ℚ) = r at h
  cases h with
  | zero s => exact ⟨s, rfl⟩
  | @finite s m e hm h => exact absurd hr.symm (apply_mul_two_zpow_ne_zero hm)

/-- A double other than zero has the sign and the magnitude of its number. -/
lemma exists_eq_finite (hm : 0 < m) (h : Represents u (s.apply m * 2 ^ e)) :
    ∃ m' e' hm', u = .finite s m' e' hm' ∧ Canonical m' e' ∧ (m : ℚ) * 2 ^ e = m' * 2 ^ e' := by
  have hpos : ∀ k : ℤ, 0 < (2 : ℚ) ^ k := fun k => zpow_pos two_pos k
  generalize hr : (s.apply m : ℚ) * 2 ^ e = r at h
  cases h with
  | zero s' => exact absurd hr (apply_mul_two_zpow_ne_zero hm)
  | @finite s' m' e' hm' h =>
    obtain ⟨rfl, hmagnitude⟩ := sign_eq hm hm' (hpos e) (hpos e') hr
    exact ⟨m', e', hm', rfl, h, hmagnitude⟩

lemma round_eq (hm : 0 < m) (h : Represents u (s.apply m * 2 ^ e)) :
    UnpackedFloat.round Format.binary64 s m e = u := by
  obtain ⟨m', e', hm', rfl, h', hmagnitude⟩ := h.exists_eq_finite hm
  exact Double.round_eq h' hmagnitude

/-- An integer times a power of two that is a double is rounded to this double; zero gets the sign
that is asked for. -/
lemma normalize {z : ℤ} {t : Sign} (h : Represents u (z * 2 ^ e)) :
    Represents (UnpackedFloat.normalize Format.binary64 z e t) (z * 2 ^ e) := by
  rw [UnpackedFloat.normalize]
  split
  · next hlt =>
    rw [Int.compare_eq_lt] at hlt
    have hz : (z : ℚ) = (Sign.apply .negative (-z).toNat : ℤ) := by
      rw [Sign.apply, Int.toNat_of_nonneg (by omega), neg_neg]
    rw [hz] at h ⊢
    rwa [h.round_eq (by omega)]
  · next heq =>
    rw [Int.compare_eq_eq] at heq
    rw [heq, Int.cast_zero, zero_mul]
    exact .zero t
  · next hgt =>
    rw [Int.compare_eq_gt] at hgt
    have hz : (z : ℚ) = (Sign.apply .positive z.toNat : ℤ) := by
      rw [Sign.apply, Int.toNat_of_nonneg (by omega)]
    rw [hz] at h ⊢
    rwa [h.round_eq (by omega)]

end Represents

end MatrixReckoner.Double
