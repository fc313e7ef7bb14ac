import MatrixReckoner.Proofs.Floating.Rounding

/-!
Sums, differences and products of doubles are exact where the results are doubles.

* `Double.Denotes`, `Double.Representable`: the number of a finite double, and the numbers that
  doubles have.
* `Double.Represents.add`, `Double.Represents.sub`, `Double.Represents.mul`: operations on unpacked
  doubles.
* `Double.Denotes.add`, `Double.Denotes.sub`, `Double.Denotes.mul`: operations on doubles.
* `Double.Denotes.beq`: doubles of one number are equal.
* `Double.representable_intCast`: integers of 53 bits are doubles.
-/

namespace MatrixReckoner.Double

open Float.Model (Format UnpackedFloat)
open Float.Model.UnpackedFloat

/-- The double is finite and has the number `r`. -/
def Denotes (x : Float) (r : ℚ) : Prop :=
  Represents x.toModel.unpack r

/-- The number is that of a double. -/
def Representable (r : ℚ) : Prop :=
  ∃ x, Denotes x r

lemma Representable.exists_represents {r : ℚ} (h : Representable r) : ∃ u, Represents u r :=
  let ⟨x, hx⟩ := h
  ⟨x.toModel.unpack, hx⟩

lemma Represents.denotes {u : UnpackedFloat} {r : ℚ} (h : Represents u r) :
    Denotes (.ofModel (Float.Model.pack u)) r := by
  rw [Denotes, unpack_pack h]
  exact h

lemma Represents.representable {u : UnpackedFloat} {r : ℚ} (h : Represents u r) :
    Representable r :=
  ⟨_, h.denotes⟩

section Unpacked

variable {x y : UnpackedFloat} {a b : ℚ}

/-! ### Sums and differences -/

/-- A smaller exponent does not change the number. -/
lemma decreaseExponent_eq {s : Sign} {m : ℕ} {e e' : ℤ} (he : e' ≤ e) :
    ((s.apply (decreaseExponent m e e').1 : ℤ) : ℚ) * 2 ^ e' = s.apply m * 2 ^ e := by
  obtain ⟨k, rfl⟩ : ∃ k : ℕ, e = e' + k := ⟨(e - e').toNat, by omega⟩
  have hshift : (e' + k - e').toNat = k := by omega
  rw [decreaseExponent, hshift, zpow_add₀ two_ne_zero, zpow_natCast, Nat.shiftLeft_eq]
  cases s <;> simp only [Sign.apply] <;> push_cast <;> ring

/-- Numbers other than zero are added as integer multiples of the smaller last place. -/
lemma Represents.add (hx : Represents x a) (hy : Represents y b) (hab : Representable (a + b)) :
    Represents (UnpackedFloat.add Format.binary64 x y) (a + b) := by
  obtain ⟨u, hu⟩ := hab.exists_represents
  cases hx with
  | zero s =>
    rw [zero_add]
    cases hy with
    | zero s' =>
      rw [UnpackedFloat.add]
      split <;> exact .zero _
    | finite h' => exact .finite h'
  | @finite s m e _ h =>
    cases hy with
    | zero s' =>
      rw [add_zero]
      exact .finite h
    | @finite s' m' e' _ h' =>
      have hsum : (s.apply m : ℚ) * 2 ^ e + s'.apply m' * 2 ^ e' =
          ((s.apply (decreaseExponent m e (min e e')).1 +
            s'.apply (decreaseExponent m' e' (min e e')).1 : ℤ) : ℚ) * 2 ^ min e e' := by
        rw [Int.cast_add, add_mul, decreaseExponent_eq (min_le_left e e'),
          decreaseExponent_eq (min_le_right e e')]
      rw [hsum] at hu ⊢
      exact hu.normalize

lemma apply_neg (s : Sign) (z : ℤ) : (-s).apply z = -s.apply z := by
  cases s
  · exact (neg_neg z).symm
  · rfl

lemma Represents.neg (hx : Represents x a) : Represents x.neg (-a) := by
  cases hx with
  | zero s =>
    rw [neg_zero]
    exact .zero (-s)
  | @finite s m e _ h =>
    rw [← neg_mul, ← Int.cast_neg, ← apply_neg]
    exact .finite h

/-- A difference is a sum with the opposite, also of what is not finite. -/
lemma sub_eq_add_opposite (x y : UnpackedFloat) : UnpackedFloat.sub Format.binary64 x y =
    UnpackedFloat.add Format.binary64 x y.neg := by
  cases x <;> cases y <;> try rfl
  simp only [UnpackedFloat.sub, UnpackedFloat.add, UnpackedFloat.neg, apply_neg, Int.sub_eq_add_neg]

lemma Represents.sub (hx : Represents x a) (hy : Represents y b) (hab : Representable (a - b)) :
    Represents (UnpackedFloat.sub Format.binary64 x y) (a - b) := by
  rw [sub_eq_add_neg] at hab ⊢
  rw [sub_eq_add_opposite]
  exact hx.add hy.neg hab

/-! ### Products -/

lemma apply_mul (s t : Sign) (y z : ℤ) : (s * t).apply (y * z) = s.apply y * t.apply z := by
  cases s <;> cases t <;> simp only [Sign.apply]
  · exact (neg_mul_neg y z).symm
  · exact (neg_mul y z).symm
  · exact (mul_neg y z).symm

/-- A double that is the product of two others never has a smaller exponent than their exponents
make together: a significand of 53 bits makes a product of at least as many, and two smallest
exponents add up to less than the smallest. -/
lemma exponent_add_le {m₁ m₂ m : ℕ} {e₁ e₂ e : ℤ} (hm₁ : 0 < m₁) (hm₂ : 0 < m₂)
    (h₁ : Canonical m₁ e₁) (h₂ : Canonical m₂ e₂) (h : Canonical m e)
    (heq : ((m₁ * m₂ : ℕ) : ℚ) * 2 ^ (e₁ + e₂) = m * 2 ^ e) : e₁ + e₂ ≤ e := by
  by_contra hlt
  obtain ⟨k, rfl⟩ : ∃ k : ℕ, e = e₁ + e₂ - (k + 1 : ℕ) := ⟨(e₁ + e₂ - e).toNat - 1, by omega⟩
  have hm : m = m₁ * m₂ * 2 ^ (k + 1) := eq_mul_two_pow heq.symm
  have htwo : 2 ≤ 2 ^ (k + 1) := Nat.le_self_pow (by omega) 2
  have hlarge : ∀ {m m' : ℕ}, 2 ^ 52 ≤ m → 0 < m' → 2 ^ 53 ≤ m * m' * 2 ^ (k + 1) := by
    intro m m' hm hm'
    calc 2 ^ 53 = 2 ^ 52 * 1 * 2 := by norm_num
      _ ≤ m * m' * 2 ^ (k + 1) := by gcongr; exact hm'
  have hsignificand := h.lt
  have hexponent := h.min_le
  rcases h₁.normal_or with hnormal | hmin
  · have := hlarge hnormal hm₂
    omega
  · rcases h₂.normal_or with hnormal | hmin'
    · have := hlarge hnormal hm₁
      rw [mul_comm m₂ m₁] at this
      omega
    · omega

lemma Represents.mul (hx : Represents x a) (hy : Represents y b) (hab : Representable (a * b)) :
    Represents (UnpackedFloat.mul Format.binary64 x y) (a * b) := by
  obtain ⟨u, hu⟩ := hab.exists_represents
  cases hx with
  | zero s =>
    rw [zero_mul]
    cases hy <;> exact .zero _
  | @finite s m e hm h =>
    cases hy with
    | zero s' =>
      rw [mul_zero]
      exact .zero _
    | @finite s' m' e' hm' h' =>
      have hproduct : (s.apply m : ℚ) * 2 ^ e * (s'.apply m' * 2 ^ e') =
          ((s * s').apply (m * m' : ℕ) : ℤ) * 2 ^ (e + e') := by
        rw [Nat.cast_mul, apply_mul, Int.cast_mul, zpow_add₀ two_ne_zero]
        ring
      rw [hproduct] at hu ⊢
      obtain ⟨m₀, e₀, hm₀, rfl, h₀, hmagnitude⟩ := hu.exists_eq_finite (Nat.mul_pos hm hm')
      have hle := exponent_add_le hm hm' h h' h₀ hmagnitude
      obtain ⟨k, hk⟩ : ∃ k : ℕ, e + e' = e₀ - k := ⟨(e₀ - (e + e')).toNat, by omega⟩
      have hround := @roundWithAccuracy_eq (s * s') _ _ hm₀ h₀ k
      rw [hk] at hmagnitude
      rw [← eq_mul_two_pow hmagnitude, ← hk] at hround
      rw [UnpackedFloat.mul, hround]
      exact hu

end Unpacked

/-! ### Doubles -/

section Denotes

variable {x y : Float} {a b r : ℚ}

lemma Denotes.unique (ha : Denotes x a) (hb : Denotes x b) : a = b := by
  rw [Denotes] at ha hb
  generalize x.toModel.unpack = u at *
  cases ha <;> cases hb <;> rfl

lemma Denotes.representable (h : Denotes x r) : Representable r := ⟨_, h⟩

/-- **A sum that is a double is not rounded.** -/
theorem Denotes.add (hx : Denotes x a) (hy : Denotes y b) (h : Representable (a + b)) :
    Denotes (x + y) (a + b) :=
  (Represents.add hx hy h).denotes

/-- **A difference that is a double is not rounded.** -/
theorem Denotes.sub (hx : Denotes x a) (hy : Denotes y b) (h : Representable (a - b)) :
    Denotes (x - y) (a - b) :=
  (Represents.sub hx hy h).denotes

/-- **A product that is a double is not rounded.** -/
theorem Denotes.mul (hx : Denotes x a) (hy : Denotes y b) (h : Representable (a * b)) :
    Denotes (x * y) (a * b) :=
  (Represents.mul hx hy h).denotes

/-- Doubles of one number are equal, the two zeros included. -/
theorem Denotes.beq (hx : Denotes x r) (hy : Denotes y r) : (x == y) = true := by
  change UnpackedFloat.beq x.toModel.unpack y.toModel.unpack = true
  rw [Denotes] at hx hy
  generalize x.toModel.unpack = u at *
  generalize y.toModel.unpack = v at *
  cases hx with
  | zero s =>
    obtain ⟨s', rfl⟩ := hy.exists_eq_zero
    rfl
  | @finite s m e hm h =>
    obtain rfl : UnpackedFloat.finite s m e hm = v :=
      ((Represents.finite h).round_eq hm).symm.trans (hy.round_eq hm)
    have hcompare : (compare e e).then (compare m m) = .eq := by
      rw [compare_eq_iff_eq.mpr rfl, compare_eq_iff_eq.mpr rfl]
      rfl
    rw [UnpackedFloat.beq]
    cases s <;> rw [UnpackedFloat.compare, hcompare] <;> rfl

lemma denotes_zero : Denotes 0 0 :=
  .zero .positive

lemma denotes_one : Denotes 1 1 := by
  have hvalue : (Sign.apply .positive (2 ^ 52 : ℕ) : ℚ) * 2 ^ (-52 : ℤ) = 1 := by
    rw [Sign.apply]
    norm_num
  have h : Canonical (2 ^ 52) (-52) := ⟨by norm_num, by norm_num, by norm_num, Or.inl le_rfl⟩
  rw [← hvalue]
  exact @Represents.finite .positive _ _ (by norm_num) h

end Denotes

lemma representable_natCast {n : ℕ} (h : n < 2 ^ 53) : Representable n := by
  rcases Nat.eq_zero_or_pos n with rfl | hn
  · exact denotes_zero.representable
  · have hlog : n.log2 < 53 := (Nat.log2_lt hn.ne').mpr h
    obtain ⟨k, hk⟩ : ∃ k, n.log2 + k = 52 := ⟨52 - n.log2, by omega⟩
    have hpos : 0 < n * 2 ^ k := by positivity
    obtain ⟨hle, hlt⟩ := (Nat.log2_eq_iff hpos.ne').mp ((log2_mul_two_pow hn k).trans hk)
    have hcanonical : Canonical (n * 2 ^ k) (-k) := ⟨hlt, by omega, by omega, Or.inl hle⟩
    have hvalue : (Sign.apply .positive (n * 2 ^ k : ℕ) : ℚ) * 2 ^ (-k : ℤ) = n := by
      rw [Sign.apply, zpow_neg, zpow_natCast]
      push_cast
      field_simp
    rw [← hvalue]
    exact (@Represents.finite .positive _ _ hpos hcanonical).representable

/-- Integers of at most 53 bits are doubles. -/
lemma representable_intCast {z : ℤ} (h : |z| < 2 ^ 53) : Representable z := by
  obtain ⟨n, rfl | rfl⟩ := Int.eq_nat_or_neg z
  · rw [Nat.abs_cast] at h
    exact_mod_cast representable_natCast (n := n) (by exact_mod_cast h)
  · rw [abs_neg, Nat.abs_cast] at h
    obtain ⟨u, hu⟩ := (representable_natCast (n := n) (by exact_mod_cast h)).exists_represents
    exact_mod_cast hu.neg.representable

end MatrixReckoner.Double
