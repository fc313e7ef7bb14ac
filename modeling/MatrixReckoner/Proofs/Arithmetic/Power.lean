import Mathlib.LinearAlgebra.Matrix.ZPow
import MatrixReckoner.Proofs.Arithmetic.Failures
import MatrixReckoner.Proofs.Arithmetic.Inverse

/-!
Powers of square matrices by repeated squaring: the repeated product, and the exponent law over the
rational numbers.

* `DenseMatrix.computes_power`: a power that is computed is that of the matrix of the values, and if
  it is not computed, an operation on the entries overflows.
* `DenseMatrix.repeatedProduct`, `DenseMatrix.power_eq_repeatedProduct`: the factors multiplied one
  after another, which is what repeated squaring computes.
* `DenseMatrix.exists_integerPower_eq_ok`: powers with integer exponents of a regular matrix.
* `DenseMatrix.multiply_integerPower`: the product of two powers is the power with the sum of the
  exponents.
-/

namespace MatrixReckoner.DenseMatrix

variable {α : Type} [Element α] {n : ℕ}

/-! ### Computations without overflows -/

lemma Answers.overflowFree {p : Except MatrixError (DenseMatrix α)} {s : Shape} (hp : Answers p s)
    (hα : ∀ o, ¬ Overflows α o) : OverflowFree p := by
  obtain ⟨c, rfl, -⟩ := hp.exists_eq_ok hα
  exact nofun

/-! ### Repeated squaring -/

section Exact

variable {R : Type} [CommRing R] [Exact α R]

/-- Repeated squaring: the square of half the power, and the matrix once more if the exponent is
odd. -/
lemma computes_powerSteps (x : Grid α n n) {k : ℕ} (hk : 0 < k) :
    Computes (x.values ^ k) (powerSteps ⟨n, n, x⟩ k) := by
  induction k using powerSteps.induct with
  | case1 k hone =>
      obtain rfl : k = 1 := by omega
      rw [powerSteps, if_pos hone, pow_one]
      exact .ok x rfl
  | case2 k hone ih =>
      rw [powerSteps, if_neg hone]
      refine (ih (by omega)).bind fun half hhalf =>
        (computes_multiply hhalf hhalf).bind fun square hsquare => ?_
      rw [← pow_add] at hsquare
      split
      · next heven =>
        have hk : k / 2 + k / 2 = k := by omega
        exact .ok square (hsquare.trans (by rw [hk]))
      · next hodd =>
        have hk : k / 2 + k / 2 + 1 = k := by omega
        rw [← hk, pow_succ]
        exact computes_multiply hsquare rfl

/-- **A power that is computed is that of the matrix of the values.** -/
theorem computes_power (x : Grid α n n) (k : ℕ) :
    Computes (x.values ^ k) (power ⟨n, n, x⟩ k) := by
  rw [power, if_neg (not_not.mpr rfl)]
  split
  · next hzero =>
    rw [hzero, pow_zero]
    exact .ok (.identity n) Grid.values_identity
  · next hne => exact computes_powerSteps x (Nat.pos_of_ne_zero hne)

end Exact

/-! ### Repeated products -/

/-- The identity times the matrix, `k` times one after another, by the classical product. -/
def repeatedProduct (a : DenseMatrix α) : ℕ → Except MatrixError (DenseMatrix α)
  | 0 => .ok ⟨a.rows, a.rows, .identity a.rows⟩
  | k + 1 => do product (← repeatedProduct a k) a

/-- A classical product that is computed is that of the matrices of the values. -/
lemma computes_product {R : Type} [CommRing R] [Exact α R] {l m : ℕ} {x : Grid α l m}
    {u : Matrix (Fin l) (Fin m) R} (hx : x.values = u) (y : Grid α m n) :
    Computes (u * y.values) (product ⟨l, m, x⟩ ⟨m, n, y⟩) := by
  subst hx
  rw [product_mk]
  exact computes_grid fun z hz => Grid.values_of_product hz

lemma answers_repeatedProduct {a : DenseMatrix α} (ha : a.rows = a.cols) (k : ℕ) :
    Answers (repeatedProduct a k) a.shape := by
  induction k with
  | zero => exact Or.inl ⟨_, rfl, congrArg (Shape.mk a.rows) ha⟩
  | succ k ih =>
      refine ih.bind ?_
      rintro ⟨_, _, _⟩ ⟨⟩
      exact answers_product ha.symm

lemma computes_repeatedProduct {R : Type} [CommRing R] [Exact α R] (x : Grid α n n) (k : ℕ) :
    Computes (x.values ^ k) (repeatedProduct ⟨n, n, x⟩ k) := by
  induction k with
  | zero =>
      rw [pow_zero]
      exact .ok (.identity n) Grid.values_identity
  | succ k ih =>
      rw [pow_succ]
      exact ih.bind fun z hz => computes_product hz x

/-- **Repeated squaring is repeated multiplication**: for square matrices of bounded integers and
every natural exponent, the power and the repeated product are computed and are one matrix where no
operation of either overflows; for unbounded integers they always are. -/
theorem power_eq_repeatedProduct :
    (∀ (w : IntWidth) (n : ℕ) (x : Grid (BoundedInt w) n n) (k : ℕ),
      Agree (power ⟨n, n, x⟩ k) (repeatedProduct ⟨n, n, x⟩ k)) ∧
    ∀ (n : ℕ) (x : Grid ℤ n n) (k : ℕ), ∃ c, power ⟨n, n, x⟩ k = .ok c ∧
      repeatedProduct ⟨n, n, x⟩ k = .ok c := by
  refine ⟨fun w n x k => (computes_power x k).agree (computes_repeatedProduct x k),
    fun n x k => (computes_power x k).agree (computes_repeatedProduct x k) ?_ ?_⟩
  · exact (answers_power rfl k).overflowFree (Unfailing.of_inRange ExactInt.inRange).not_overflows
  · exact (answers_repeatedProduct rfl k).overflowFree
      (Unfailing.of_inRange ExactInt.inRange).not_overflows

/-- The fifth power of the matrix with the rows 1 2 and -3 4, with products by both methods. -/
theorem power_eq_repeatedProduct_of_odd_exponent :
    ∃ x : Grid (BoundedInt .w32) 2 2,
      usesStrassen ⟨2, 2, x⟩ ⟨2, 2, x⟩ = true ∧ OverflowFree (power ⟨2, 2, x⟩ 5) ∧
      OverflowFree (repeatedProduct ⟨2, 2, x⟩ 5) ∧
      ∃ c, power ⟨2, 2, x⟩ 5 = .ok c ∧ repeatedProduct ⟨2, 2, x⟩ 5 = .ok c := by
  let x : Grid (BoundedInt .w32) 2 2 := .ofVector #v[.one, ⟨2, by decide, by decide⟩,
    ⟨-3, by decide, by decide⟩, ⟨4, by decide, by decide⟩]
  have h : OverflowFree (power ⟨2, 2, x⟩ 5) := fun o => by cases o <;> decide +kernel
  have h' : OverflowFree (repeatedProduct ⟨2, 2, x⟩ 5) := fun o => by cases o <;> decide +kernel
  exact ⟨x, by decide, h, h', power_eq_repeatedProduct.1 .w32 2 x 5 h h'⟩

/-! ### Powers with integer exponents -/

/-- Over the rational numbers the power with a natural exponent is that of the matrix of the
values. -/
lemma exists_power_eq_ok (x : Grid ℚ n n) (k : ℕ) :
    ∃ y : Grid ℚ n n, power ⟨n, n, x⟩ k = .ok ⟨n, n, y⟩ ∧ y.values = x.values ^ k := by
  obtain ⟨c, hc, -⟩ :=
    (Unfailing.of_inRange ExactRat.inRange).exists_power_eq_ok (a := ⟨n, n, x⟩) rfl k
  obtain ⟨y, rfl, hy⟩ := (computes_power x k).exists_of_eq_ok hc
  exact ⟨y, hc, hy⟩

/-- **A regular matrix has every integer power.** -/
theorem exists_integerPower_eq_ok {x : Grid ℚ n n} (hdet : x.values.det ≠ 0) (k : ℤ) :
    ∃ y : Grid ℚ n n, integerPower ⟨n, n, x⟩ k = .ok ⟨n, n, y⟩ ∧ y.values = x.values ^ k := by
  by_cases hneg : k < 0
  · obtain ⟨y, hy, hinverse⟩ := exists_inverse_eq_ok hdet
    obtain ⟨z, hz, hpower⟩ := exists_power_eq_ok y k.natAbs
    have hk : -(k.natAbs : ℤ) = k := by omega
    refine ⟨z, ?_, ?_⟩
    · rw [integerPower, if_pos hneg, hy]
      exact hz
    · rw [hpower, hinverse, Matrix.inv_pow', ← Matrix.zpow_neg_natCast, hk]
  · obtain ⟨y, hy, hpower⟩ := exists_power_eq_ok x k.natAbs
    have hk : (k.natAbs : ℤ) = k := by omega
    refine ⟨y, ?_, ?_⟩
    · rw [integerPower, if_neg hneg, hy]
    · rw [hpower, ← zpow_natCast, hk]

/-- **The exponent law**: for a square matrix of rational numbers whose determinant is not zero, the
product of two powers, of whichever signs, is the power with the sum of the exponents. -/
theorem multiply_integerPower {x : Grid ℚ n n} {d : ℚ} (hd : determinant ⟨n, n, x⟩ = .ok d)
    (hne : d ≠ 0) (j k : ℤ) :
    ∃ b c p, integerPower ⟨n, n, x⟩ j = .ok b ∧ integerPower ⟨n, n, x⟩ k = .ok c ∧
      integerPower ⟨n, n, x⟩ (j + k) = .ok p ∧ multiply b c = .ok p := by
  have hdet : x.values.det ≠ 0 := by
    rw [determinant_eq_ok] at hd
    rwa [Except.ok.inj hd]
  obtain ⟨b, hb, hbvalues⟩ := exists_integerPower_eq_ok hdet j
  obtain ⟨c, hc, hcvalues⟩ := exists_integerPower_eq_ok hdet k
  obtain ⟨p, hp, hpvalues⟩ := exists_integerPower_eq_ok hdet (j + k)
  refine ⟨_, _, _, hb, hc, hp, ?_⟩
  rw [multiply_eq_ok_iff_values ExactRat.inRange, hpvalues, hbvalues, hcvalues,
    Matrix.zpow_add (isUnit_iff_ne_zero.mpr hdet)]

/-- The matrix with the rows 2 1 and 1 1, the least exponent of 32 bits and the greatest. -/
theorem multiply_integerPower_of_extremes :
    determinant ⟨2, 2, .ofVector #v[2, 1, 1, 1]⟩ = .ok (1 : ℚ) ∧ (1 : ℚ) ≠ 0 ∧
      ∃ b c p, integerPower ⟨2, 2, .ofVector #v[(2 : ℚ), 1, 1, 1]⟩ (-2147483648) = .ok b ∧
        integerPower ⟨2, 2, .ofVector #v[(2 : ℚ), 1, 1, 1]⟩ 2147483647 = .ok c ∧
          integerPower ⟨2, 2, .ofVector #v[(2 : ℚ), 1, 1, 1]⟩ (-2147483648 + 2147483647) = .ok p ∧
            multiply b c = .ok p := by
  have hd : determinant ⟨2, 2, .ofVector #v[2, 1, 1, 1]⟩ = .ok (1 : ℚ) := by decide +kernel
  exact ⟨hd, one_ne_zero, multiply_integerPower hd one_ne_zero (-2147483648) 2147483647⟩

end MatrixReckoner.DenseMatrix
