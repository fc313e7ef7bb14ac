import MatrixReckoner.Proofs.Arithmetic.Magnitude
import MatrixReckoner.Proofs.Floating.Product

/-!
Doubles that are integers: none of the intermediate results of Strassen's product has to be rounded
while their magnitudes stay below `2 ^ 53`.

* `Double.Integral`, `Double.magnitudes_integral`: the integers up to a magnitude.
* `Double.Integral.representable`: they are doubles while the magnitude is below `2 ^ 53`.
* `Double.strassenFits_of_integral`: a bound on the entries of two matrices that keeps Strassen's
  product exact.
-/

namespace MatrixReckoner.Double

open Grid (side)

variable {n : ℕ}

/-- The number is an integer of magnitude at most `B`. -/
def Integral (B : ℕ) (r : ℚ) : Prop :=
  ∃ z : ℤ, |z| ≤ B ∧ r = z

lemma magnitudes_integral : Magnitudes Integral where
  mono := by
    rintro A B _ ⟨z, hz, rfl⟩ h
    exact ⟨z, magnitudes_abs.mono hz h, rfl⟩
  zero := ⟨0, magnitudes_abs.zero, Int.cast_zero.symm⟩
  one := ⟨1, magnitudes_abs.one, Int.cast_one.symm⟩
  add := by
    rintro A B _ _ ⟨z, hz, rfl⟩ ⟨z', hz', rfl⟩
    exact ⟨z + z', magnitudes_abs.add hz hz', (Int.cast_add z z').symm⟩
  sub := by
    rintro A B _ _ ⟨z, hz, rfl⟩ ⟨z', hz', rfl⟩
    exact ⟨z - z', magnitudes_abs.sub hz hz', (Int.cast_sub z z').symm⟩
  mul := by
    rintro A B _ _ ⟨z, hz, rfl⟩ ⟨z', hz', rfl⟩
    exact ⟨z * z', magnitudes_abs.mul hz hz', (Int.cast_mul z z').symm⟩

lemma Integral.representable {A : ℕ} {a : ℚ} (ha : Integral A a) (h : A < 2 ^ 53) :
    Representable a := by
  obtain ⟨z, hz, rfl⟩ := ha
  exact representable_intCast (hz.trans_lt (by exact_mod_cast h))

lemma within_one : Within (Integral 1) (1 : Matrix (Fin n) (Fin n) ℚ) := by
  intro i j
  rw [Matrix.one_apply]
  split
  · exact magnitudes_integral.one
  · exact magnitudes_integral.mono magnitudes_integral.zero zero_le_one

/-- **Strassen's product of integers**: where the magnitudes of the entries times the square of
twice the order are below `2 ^ 53`, every intermediate result is a double. -/
theorem strassenFits_of_integral (e : ℕ) {B C : ℕ} (hB : 0 < B) (hC : 0 < C)
    (h : 4 ^ (e + 1) * (B * C) < 2 ^ 53) {u v : Matrix (Fin (side e)) (Fin (side e)) ℚ}
    (hu : Within (Integral B) u) (hv : Within (Integral C) v) :
    Grid.StrassenFits Representable e u v := by
  have hside : side e ^ 2 = 4 ^ e := by
    rw [DenseMatrix.side_eq_two_pow, ← pow_mul, mul_comm, pow_mul]
    norm_num
  have hle : 3 * side e ^ 2 * (B * C) ≤ 4 ^ (e + 1) * (B * C) := by
    rw [hside, pow_succ']
    gcongr
    norm_num
  have hbound : 3 * side e ^ 2 * (B * C) ≤ 2 ^ 53 - 1 := by omega
  exact Grid.strassenFits_of_magnitudes magnitudes_integral
    (fun r hr => hr.representable (by norm_num)) e hB hC hbound hu hv

end MatrixReckoner.Double
