import MatrixReckoner.Element.Floating
import MatrixReckoner.Proofs.Number.Rounding

/-!
The word that is nearest to a fraction is nearest to it.

* `BinaryFormat.units_add`: the multiple of the unit of a word, by the place where it is rounded.
* `BinaryFormat.greatest`, `BinaryFormat.units_le_greatest`: the greatest number of a format.
* `BinaryFormat.dvd_units`: numbers that are large are multiples of a large power of two.
* `BinaryFormat.nearest_lt_infinity`, `BinaryFormat.natAbs_units_nearest_le`: a fraction that is not
  above the greatest number has a nearest word, and no number is nearer.
-/

namespace MatrixReckoner.BinaryFormat

variable (f : BinaryFormat)

/-! ### Units -/

/-- The number of stored fractions. -/
def fractions : ℕ :=
  2 ^ f.fractionBits

lemma fractions_pos : 0 < f.fractions :=
  Nat.two_pow_pos _

/-- A number of the format, by its exponent field and its stored fraction. -/
lemma units_field (field : ℕ) {t : ℕ} (ht : t < f.fractions) :
    f.units (field * f.fractions + t) =
      if field = 0 then t else (f.fractions + t) * 2 ^ (field - 1) := by
  have hdiv : (field * f.fractions + t) / Nat.pow 2 f.fractionBits = field := by
    rw [Nat.pow_eq, ← fractions, mul_comm, Nat.mul_add_div f.fractions_pos, Nat.div_eq_of_lt ht,
      add_zero]
  have hmod : (field * f.fractions + t) % Nat.pow 2 f.fractionBits = t := by
    rw [Nat.pow_eq, ← fractions, mul_comm, Nat.mul_add_mod, Nat.mod_eq_of_lt ht]
  rw [units]
  simp only [hdiv, hmod]
  rfl

/-- Every word has an exponent field and a stored fraction. -/
lemma exists_field (word : ℕ) :
    ∃ field t, t < f.fractions ∧ word = field * f.fractions + t :=
  ⟨word / f.fractions, word % f.fractions, Nat.mod_lt _ f.fractions_pos,
    (Nat.div_add_mod' word f.fractions).symm⟩

/-- The word of a multiple `r` of a power of two: `r` has all the digits that the format keeps, or
one more if it is a power of two, or fewer and the power is one. -/
lemma units_add {k r : ℕ} (hr : r ≤ 2 * f.fractions) (hk : k = 0 ∨ f.fractions ≤ r) :
    f.units (k * f.fractions + r) = r * 2 ^ k := by
  rcases lt_or_ge r f.fractions with hlt | hge
  · obtain rfl : k = 0 := hk.resolve_right hlt.not_ge
    rw [units_field f 0 hlt, if_pos rfl, pow_zero, mul_one]
  · obtain ⟨t, rfl⟩ := Nat.exists_eq_add_of_le hge
    rcases lt_or_eq_of_le hr with hlt | heq
    · have hword : k * f.fractions + (f.fractions + t) = (k + 1) * f.fractions + t := by ring
      rw [hword, units_field f (k + 1) (by omega), if_neg k.succ_ne_zero, Nat.add_sub_cancel]
    · obtain rfl : t = f.fractions := by omega
      have hword : k * f.fractions + (f.fractions + f.fractions) = (k + 2) * f.fractions + 0 := by
        ring
      rw [hword, units_field f (k + 2) f.fractions_pos, if_neg (by omega)]
      have hexponent : k + 2 - 1 = k + 1 := rfl
      rw [hexponent]
      ring

/-- A number with at least as many units as all fractions at an exponent is a multiple of the power
of two of this exponent. -/
lemma dvd_units {k word : ℕ} (h : f.fractions * 2 ^ k ≤ f.units word) : 2 ^ k ∣ f.units word := by
  obtain ⟨field, t, ht, rfl⟩ := f.exists_field word
  rw [units_field f field ht] at h ⊢
  have hpow : 1 ≤ 2 ^ k := Nat.one_le_two_pow
  cases field with
  | zero =>
      rw [if_pos rfl] at h
      have := Nat.le_mul_of_pos_right f.fractions hpow
      omega
  | succ field =>
      rw [if_neg field.succ_ne_zero, Nat.add_sub_cancel] at h ⊢
      have hlt : f.fractions * 2 ^ k < f.fractions * 2 ^ (field + 1) := by
        calc f.fractions * 2 ^ k ≤ (f.fractions + t) * 2 ^ field := h
          _ < (2 * f.fractions) * 2 ^ field := by
            exact Nat.mul_lt_mul_of_pos_right (by omega) (Nat.two_pow_pos field)
          _ = f.fractions * 2 ^ (field + 1) := by ring
      have hk : k < field + 1 :=
        (Nat.pow_lt_pow_iff_right (by norm_num)).mp (Nat.lt_of_mul_lt_mul_left hlt)
      exact (pow_dvd_pow 2 (Nat.le_of_lt_succ hk)).mul_left _

/-! ### The greatest number -/

/-- The greatest exponent at which the digits of a number begin. -/
def greatestExponent : ℕ :=
  2 ^ f.exponentBits - 3

/-- The number of units of the greatest number. -/
def greatest : ℕ :=
  (2 * f.fractions - 1) * 2 ^ f.greatestExponent

lemma infinity_eq (h : 2 ≤ f.exponentBits) :
    f.infinity = (f.greatestExponent + 2) * f.fractions := by
  have hpow : 2 ^ 2 ≤ 2 ^ f.exponentBits := Nat.pow_le_pow_right (by norm_num) h
  rw [infinity, greatestExponent, fractions, Nat.pow_eq, Nat.pow_eq]
  congr 1
  omega

lemma units_le_greatest (h : 2 ≤ f.exponentBits) {word : ℕ} (hword : word < f.infinity) :
    f.units word ≤ f.greatest := by
  obtain ⟨field, t, ht, rfl⟩ := f.exists_field word
  have hfield : field < f.greatestExponent + 2 := by
    rw [f.infinity_eq h] at hword
    exact Nat.lt_of_mul_lt_mul_right (Nat.lt_of_add_right_lt hword)
  rw [units_field f field ht, greatest]
  split
  · exact le_trans (by omega) (Nat.le_mul_of_pos_right _ (Nat.two_pow_pos _))
  · exact Nat.mul_le_mul (by omega) (Nat.pow_le_pow_right (by norm_num) (by omega))

/-! ### The nearest word -/

/-- The exponent of the last place at which `scaled / den` units are rounded. -/
def lastPlace (scaled den : ℕ) : ℕ :=
  (scaled / den).log2 - f.fractionBits

/-- The digits of `scaled / den` units, rounded at the last place. -/
def digits (scaled den : ℕ) : ℕ :=
  roundHalfEven scaled (den * 2 ^ f.lastPlace scaled den)

lemma nearest_eq (num den : ℕ) :
    f.nearest num den = min f.infinity
      (f.lastPlace (num * 2 ^ f.unitExponent) den * f.fractions +
        f.digits (num * 2 ^ f.unitExponent) den) := rfl

section Digits

variable {scaled den : ℕ}

/-- Rounding beyond the first place leaves all digits that the format keeps. -/
lemma mul_le_of_lastPlace_ne_zero (h : f.lastPlace scaled den ≠ 0) :
    f.fractions * (den * 2 ^ f.lastPlace scaled den) ≤ scaled := by
  have hbits : (scaled / den).log2 = f.fractionBits + f.lastPlace scaled den := by
    rw [lastPlace] at h ⊢
    omega
  have hne : scaled / den ≠ 0 := by
    intro hzero
    rw [lastPlace, hzero] at h
    simp at h
  calc f.fractions * (den * 2 ^ f.lastPlace scaled den)
      = 2 ^ (scaled / den).log2 * den := by
        rw [hbits, fractions]
        ring
    _ ≤ scaled / den * den := Nat.mul_le_mul_right den (Nat.log2_self_le hne)
    _ ≤ scaled := Nat.div_mul_le_self scaled den

variable (hden : 0 < den)

include hden

lemma digits_le : f.digits scaled den ≤ 2 * f.fractions := by
  refine roundHalfEven_le (Nat.mul_pos hden (Nat.two_pow_pos _)) ?_
  have hbits : (scaled / den).log2 + 1 ≤ f.fractionBits + f.lastPlace scaled den + 1 := by
    rw [lastPlace]
    omega
  calc scaled ≤ den * (scaled / den + 1) := (Nat.lt_mul_div_succ scaled hden).le
    _ ≤ den * 2 ^ (f.fractionBits + f.lastPlace scaled den + 1) :=
      Nat.mul_le_mul_left den
        (Nat.lt_log2_self.trans_le (Nat.pow_le_pow_right (by norm_num) hbits))
    _ = 2 * f.fractions * (den * 2 ^ f.lastPlace scaled den) := by
      rw [fractions]
      ring

lemma fractions_le_digits (h : f.lastPlace scaled den ≠ 0) :
    f.fractions ≤ f.digits scaled den :=
  le_roundHalfEven (Nat.mul_pos hden (Nat.two_pow_pos _)) (f.mul_le_of_lastPlace_ne_zero h)

/-- A number that is not above the greatest one has no greater last place. -/
lemma lastPlace_le_greatestExponent (h : scaled ≤ f.greatest * den) :
    f.lastPlace scaled den ≤ f.greatestExponent := by
  by_contra hlt
  have hne : f.lastPlace scaled den ≠ 0 := by omega
  have hmul : f.fractions * 2 ^ f.lastPlace scaled den ≤ f.greatest := by
    refine Nat.le_of_mul_le_mul_right ?_ hden
    calc f.fractions * 2 ^ f.lastPlace scaled den * den
        = f.fractions * (den * 2 ^ f.lastPlace scaled den) := by ring
      _ ≤ scaled := f.mul_le_of_lastPlace_ne_zero hne
      _ ≤ f.greatest * den := h
  have habove : f.greatest < f.fractions * 2 ^ f.lastPlace scaled den := by
    calc f.greatest < 2 * f.fractions * 2 ^ f.greatestExponent :=
        Nat.mul_lt_mul_of_pos_right (Nat.sub_lt (Nat.mul_pos two_pos f.fractions_pos) one_pos)
          (Nat.two_pow_pos _)
      _ = f.fractions * 2 ^ (f.greatestExponent + 1) := by ring
      _ ≤ f.fractions * 2 ^ f.lastPlace scaled den :=
        Nat.mul_le_mul_left _ (Nat.pow_le_pow_right (by norm_num) (not_le.mp hlt))
  exact hmul.not_gt habove

/-- At the last place of the greatest number there are fewer digits than all that are kept. -/
lemma digits_lt (h : scaled ≤ f.greatest * den)
    (heq : f.lastPlace scaled den = f.greatestExponent) :
    f.digits scaled den < 2 * f.fractions := by
  have hle : f.digits scaled den ≤ 2 * f.fractions - 1 := by
    refine roundHalfEven_le (Nat.mul_pos hden (Nat.two_pow_pos _)) ?_
    rw [heq]
    calc scaled ≤ f.greatest * den := h
      _ = (2 * f.fractions - 1) * (den * 2 ^ f.greatestExponent) := by
        rw [greatest]
        ring
  have hpos := f.fractions_pos
  omega

/-- Rounding never goes beyond the greatest number. -/
lemma place_lt_infinity (heb : 2 ≤ f.exponentBits) (h : scaled ≤ f.greatest * den) :
    f.lastPlace scaled den * f.fractions + f.digits scaled den < f.infinity := by
  rw [f.infinity_eq heb, add_mul]
  rcases lt_or_eq_of_le (f.lastPlace_le_greatestExponent hden h) with hlt | heq
  · have hpos := f.fractions_pos
    have hdigits : f.digits scaled den ≤ 2 * f.fractions := f.digits_le hden
    have hplace := Nat.mul_le_mul_right f.fractions (Nat.succ_le_of_lt hlt)
    rw [Nat.succ_mul] at hplace
    omega
  · have hdigits := f.digits_lt hden h heq
    rw [heq]
    omega

variable (scaled) in
/-- No number of the format is nearer than the rounded digits at their place. -/
lemma natAbs_digits_le (word : ℕ) :
    (f.digits scaled den * (den * 2 ^ f.lastPlace scaled den : ℕ) - scaled : ℤ).natAbs ≤
      (f.units word * den - scaled : ℤ).natAbs := by
  have hpos : 0 < den * 2 ^ f.lastPlace scaled den := Nat.mul_pos hden (Nat.two_pow_pos _)
  have hmultiple : ∀ k : ℕ, k * 2 ^ f.lastPlace scaled den = f.units word →
      (f.digits scaled den * (den * 2 ^ f.lastPlace scaled den : ℕ) - scaled : ℤ).natAbs ≤
        (f.units word * den - scaled : ℤ).natAbs := by
    intro k hk
    have hunits : (f.units word * den : ℤ) = k * (den * 2 ^ f.lastPlace scaled den : ℕ) := by
      rw [← hk]
      push_cast
      ring
    rw [hunits]
    exact natAbs_roundHalfEven_le scaled hpos k
  by_cases hdvd : 2 ^ f.lastPlace scaled den ∣ f.units word
  · exact hmultiple _ (Nat.div_mul_cancel hdvd)
  · -- a number with fewer digits is below all numbers with their digits at the last place
    have hlt : f.units word < f.fractions * 2 ^ f.lastPlace scaled den :=
      not_le.mp (mt f.dvd_units hdvd)
    have hplace : f.lastPlace scaled den ≠ 0 := by
      intro hzero
      rw [hzero, pow_zero] at hdvd
      exact hdvd (one_dvd _)
    have hbelow := f.mul_le_of_lastPlace_ne_zero hplace
    have hnearest := natAbs_roundHalfEven_le scaled hpos f.fractions
    have hunits : f.units word * den ≤ f.fractions * (den * 2 ^ f.lastPlace scaled den) := by
      calc f.units word * den ≤ f.fractions * 2 ^ f.lastPlace scaled den * den :=
          Nat.mul_le_mul_right den hlt.le
        _ = f.fractions * (den * 2 ^ f.lastPlace scaled den) := by ring
    zify at hbelow hunits
    rw [digits]
    push_cast at hnearest ⊢
    omega

end Digits

section Nearest

variable {num den : ℕ} (heb : 2 ≤ f.exponentBits) (hden : 0 < den)
  (h : num * 2 ^ f.unitExponent ≤ f.greatest * den)

include heb hden h

/-- A fraction that is not above the greatest number is not rounded to infinity. -/
theorem nearest_lt_infinity : f.nearest num den < f.infinity := by
  have hlt := f.place_lt_infinity hden heb h
  rw [nearest_eq, min_eq_right hlt.le]
  exact hlt

/-- **No number is nearer to a fraction than that of its nearest word.** -/
theorem natAbs_units_nearest_le (word : ℕ) :
    (f.units (f.nearest num den) * den - num * 2 ^ f.unitExponent : ℤ).natAbs ≤
      (f.units word * den - num * 2 ^ f.unitExponent : ℤ).natAbs := by
  have hlt := f.place_lt_infinity hden heb h
  have hle := f.natAbs_digits_le (num * 2 ^ f.unitExponent) hden word
  have hplace : f.lastPlace (num * 2 ^ f.unitExponent) den = 0 ∨
      f.fractions ≤ f.digits (num * 2 ^ f.unitExponent) den :=
    or_iff_not_imp_left.mpr (f.fractions_le_digits hden)
  rw [nearest_eq, min_eq_right hlt.le, f.units_add (f.digits_le hden) hplace]
  push_cast at hle ⊢
  rwa [mul_assoc, mul_comm (2 ^ _ : ℤ)]

end Nearest

end MatrixReckoner.BinaryFormat
