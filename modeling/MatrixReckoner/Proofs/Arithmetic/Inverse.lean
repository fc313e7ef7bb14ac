import Mathlib.LinearAlgebra.Matrix.NonsingularInverse
import MatrixReckoner.Proofs.Arithmetic.Adjugate

/-!
The inverse of a square matrix of rational numbers.

* `DenseMatrix.determinant_eq_ok`: the determinant is always computed.
* `DenseMatrix.inverse_eq_singular`, `DenseMatrix.exists_inverse_eq_ok`: there is no inverse if the
  determinant is zero, and otherwise it is that of the matrix of the values.
* `DenseMatrix.inverse_two_sided`: what is computed is inverse on both sides, and where nothing is
  computed no matrix is inverse on either side.
-/

namespace MatrixReckoner

variable {n : ℕ}

namespace DenseMatrix

variable {x : Grid ℚ n n}

/-- The determinant of rational numbers is always computed. -/
lemma determinant_eq_ok (x : Grid ℚ n n) : determinant ⟨n, n, x⟩ = .ok x.values.det := by
  obtain ⟨d, hd⟩ := exists_determinant_eq_ok ExactRat.inRange rfl x
  rw [hd]
  exact congrArg Except.ok (Grid.value_of_det (det_eq_ok_of_determinant hd))

/-- A matrix whose determinant is zero has no inverse. -/
lemma inverse_eq_singular (h : x.values.det = 0) : inverse ⟨n, n, x⟩ = .error .singular := by
  rw [inverse, determinant_eq_ok, h]
  rfl

/-- The adjugate times the reciprocal of a determinant that is not zero is the inverse. -/
lemma exists_inverse_eq_ok (h : x.values.det ≠ 0) :
    ∃ y : Grid ℚ n n, inverse ⟨n, n, x⟩ = .ok ⟨n, n, y⟩ ∧ y.values = x.values⁻¹ := by
  obtain ⟨y, hy, hadjugate⟩ := exists_adjugate_eq_ok ExactRat.inRange rfl x
  let b : Grid ℚ n n := .ofFn fun i j => y.entry i j * x.values.det⁻¹
  have hmap : (y.mapM fun z => do
      Element.add (← Element.mul z (Analytic.recip x.values.det)) Element.zero) = .ok b := by
    rw [Grid.mapM_eq_ok_iff]
    intro i j
    rw [Grid.entry_ofFn]
    exact congrArg Except.ok (add_zero (y.entry i j * x.values.det⁻¹))
  refine ⟨b, ?_, ?_⟩
  · have hne : (x.values.det == (Element.zero : ℚ)) = false := decide_eq_false h
    rw [inverse, determinant_eq_ok, hy]
    dsimp only [bind, Except.bind] at hmap ⊢
    rw [hne, if_neg Bool.false_ne_true, mapM]
    dsimp only [bind, Except.bind]
    rw [hmap]
    rfl
  · ext i j
    rw [Matrix.inv_def, ← hadjugate, Ring.inverse_eq_inv', Matrix.smul_apply, smul_eq_mul, mul_comm]
    exact Grid.entry_ofFn _ i j

/-- The product of two matrices is the identity exactly if that of their values is. -/
lemma multiply_eq_identity_iff {x y : Grid ℚ n n} :
    multiply ⟨n, n, x⟩ ⟨n, n, y⟩ = .ok ⟨n, n, .identity n⟩ ↔ x.values * y.values = 1 := by
  rw [multiply_eq_ok_iff_values ExactRat.inRange, Grid.values_identity, eq_comm]

/-- **The inverse is two-sided**: at every order, a square matrix of rational numbers either has an
inverse, and the products of the two in either order are the identity, whichever method computes
them, or it is singular, and no matrix of its order makes a product with it, on either side, that is
the identity. -/
theorem inverse_two_sided (n : ℕ) (x : Grid ℚ n n) :
    (∃ y : Grid ℚ n n, inverse ⟨n, n, x⟩ = .ok ⟨n, n, y⟩ ∧
      multiply ⟨n, n, x⟩ ⟨n, n, y⟩ = .ok ⟨n, n, .identity n⟩ ∧
        multiply ⟨n, n, y⟩ ⟨n, n, x⟩ = .ok ⟨n, n, .identity n⟩) ∨
    inverse ⟨n, n, x⟩ = .error .singular ∧ ∀ z : Grid ℚ n n,
      multiply ⟨n, n, x⟩ ⟨n, n, z⟩ ≠ .ok ⟨n, n, .identity n⟩ ∧
        multiply ⟨n, n, z⟩ ⟨n, n, x⟩ ≠ .ok ⟨n, n, .identity n⟩ := by
  by_cases hdet : x.values.det = 0
  · have hunit : ¬ IsUnit x.values.det := by
      rw [hdet]
      exact not_isUnit_zero
    refine Or.inr ⟨inverse_eq_singular hdet, fun z => ⟨fun hz => hunit ?_, fun hz => hunit ?_⟩⟩
    · exact Matrix.isUnit_det_of_right_inverse (multiply_eq_identity_iff.mp hz)
    · exact Matrix.isUnit_det_of_left_inverse (multiply_eq_identity_iff.mp hz)
  · have hunit : IsUnit x.values.det := isUnit_iff_ne_zero.mpr hdet
    obtain ⟨y, hy, hvalues⟩ := exists_inverse_eq_ok hdet
    refine Or.inl ⟨y, hy, ?_, ?_⟩ <;> rw [multiply_eq_identity_iff, hvalues]
    · exact Matrix.mul_nonsing_inv _ hunit
    · exact Matrix.nonsing_inv_mul _ hunit

end DenseMatrix

end MatrixReckoner
