import MatrixReckoner.Proofs.Arithmetic.Expansion
import MatrixReckoner.Proofs.Arithmetic.Magnitude
import MatrixReckoner.Proofs.Arithmetic.Minors

/-!
Bounds on the entries of matrices of bounded integers that keep computations in range.

* `DenseMatrix.strassen_eq_ok_of_bounds`: Strassen's product of bounded entries is computed.
* `Magnitudes.keepsBounds`: an operation on numbers whose result is bounded has one.
* `DenseMatrix.determinant_eq_ok_of_bound`: determinants and adjugates of bounded entries are
  computed.
-/

namespace MatrixReckoner

open Exact (value)
open Grid (side)
open scoped Nat

/-! ### Numbers below the limit -/

namespace IntWidth

lemma limit_le (w : IntWidth) : w.limit ≤ 2 ^ 63 := by
  cases w <;> decide

/-- The greatest magnitude below the limit. -/
def greatest (w : IntWidth) : ℕ := (w.limit - 1).toNat

lemma natCast_greatest (w : IntWidth) : (w.greatest : ℤ) = w.limit - 1 :=
  Int.toNat_of_nonneg (by have := w.one_lt_limit; omega)

end IntWidth

/-- Integers up to the greatest magnitude are in range. -/
lemma BoundedInt.inRange_of_abs_le {w : IntWidth} {r : ℤ} (h : |r| ≤ w.greatest) :
    InRange (BoundedInt w) r := by
  rw [w.natCast_greatest, abs_le] at h
  rw [BoundedInt.inRange_iff]
  omega

/-! ### Strassen's product -/

namespace DenseMatrix

/-- **Where Strassen's product does not overflow**: for matrices of bounded integers whose order is
a power of two, it is computed if three times the square of the order, times the bounds of the
entries of the operands, is below the limit. Its entries are the sums of products. -/
theorem strassen_eq_ok_of_bounds {w : IntWidth} {m n : ℕ} (hn : n = 2 ^ m)
    {x y : Grid (BoundedInt w) n n} {α β : ℤ} (hα : 1 ≤ α) (hβ : 1 ≤ β)
    (hx : ∀ i j, |(x.entry i j).val| ≤ α) (hy : ∀ i j, |(y.entry i j).val| ≤ β)
    (h : 3 * n ^ 2 * α * β ≤ w.limit - 1) :
    ∃ z : Grid (BoundedInt w) n n, strassen ⟨n, n, x⟩ ⟨n, n, y⟩ = .ok ⟨n, n, z⟩ ∧
      ∀ i j, (z.entry i j).val = ∑ p, (x.entry i p).val * (y.entry p j).val := by
  obtain rfl : n = side m := hn.trans (side_eq_two_pow m).symm
  lift α to ℕ using by omega
  lift β to ℕ using by omega
  have hbound : 3 * side m ^ 2 * (α * β) ≤ w.greatest := by
    rw [← Nat.cast_le (α := ℤ), w.natCast_greatest]
    push_cast
    linarith
  have hfits : Grid.StrassenFits (InRange (BoundedInt w)) m x.values y.values :=
    Grid.strassenFits_of_magnitudes magnitudes_abs (fun _ => BoundedInt.inRange_of_abs_le) m
      (by omega) (by omega) hbound hx hy
  have hyields := Grid.strassen_yields m (rfl : x.values = _) (rfl : y.values = _)
  obtain ⟨z, hz⟩ := hyields.exists_values hfits
  refine ⟨z, ?_, fun i j => congrFun (congrFun hz i) j⟩
  rw [strassen_mk, (hyields.eq_ok_iff z).mpr ⟨hfits, hz⟩]
  rfl

/-- The greatest entries of 32 bits that the bound admits at order two. -/
theorem strassen_eq_ok_of_bounds_of_order_two :
    ∃ x : Grid (BoundedInt .w32) 2 2, (∀ i j, |(x.entry i j).val| ≤ 13377) ∧
      3 * (2 : ℕ) ^ 2 * (13377 : ℤ) * 13377 ≤ IntWidth.w32.limit - 1 ∧
      ¬ 3 * (2 : ℕ) ^ 2 * (13378 : ℤ) * 13378 ≤ IntWidth.w32.limit - 1 ∧
      ∃ z : Grid (BoundedInt .w32) 2 2, strassen ⟨2, 2, x⟩ ⟨2, 2, x⟩ = .ok ⟨2, 2, z⟩ ∧
        ∀ i j, (z.entry i j).val = ∑ p, (x.entry i p).val * (x.entry p j).val := by
  let x : Grid (BoundedInt .w32) 2 2 := .ofVector #v[⟨13377, by decide, by decide⟩,
    ⟨-13377, by decide, by decide⟩, ⟨-13377, by decide, by decide⟩, ⟨13377, by decide, by decide⟩]
  have hx : ∀ i j, |(x.entry i j).val| ≤ 13377 := by decide +kernel
  exact ⟨x, hx, by decide, by decide,
    strassen_eq_ok_of_bounds (m := 1) rfl (by decide) (by decide) hx hx (by decide)⟩

end DenseMatrix

/-! ### Determinants and adjugates -/

/-- Numbers of a ring that are in range up to the bound `L`. -/
lemma Magnitudes.keepsBounds {α R : Type} [Element α] [CommRing R] [Exact α R] {Q : ℕ → R → Prop}
    {L : ℕ} (hQ : Magnitudes Q) (hL : ∀ r, Q L r → InRange α r) :
    KeepsBounds L fun A (x : α) => Q A (value x) where
  zero := by
    rw [Exact.value_zero]
    exact hQ.zero
  one := by
    rw [Exact.value_one]
    exact hQ.one
  add hx hy h := by
    have hsum := hQ.add hx hy
    obtain ⟨z, hz⟩ := hL _ (hQ.mono hsum h)
    exact ⟨z, Exact.add_eq_ok_iff.mpr hz, hz ▸ hsum⟩
  sub hx hy h := by
    have hdifference := hQ.sub hx hy
    obtain ⟨z, hz⟩ := hL _ (hQ.mono hdifference h)
    exact ⟨z, Exact.sub_eq_ok_iff.mpr hz, hz ▸ hdifference⟩
  mul hx hy h := by
    have hproduct := hQ.mul hx hy
    obtain ⟨z, hz⟩ := hL _ (hQ.mono hproduct h)
    exact ⟨z, Exact.mul_eq_ok_iff.mpr hz, hz ▸ hproduct⟩
  neg hx h := by
    have hopposite := hQ.neg hx
    obtain ⟨z, hz⟩ := hL _ (hQ.mono hopposite h)
    exact ⟨z, Exact.neg_eq_ok_iff.mpr hz, hz ▸ hopposite⟩

/-- Only determinants of small orders have a bound below the limit. -/
lemma le_twenty_of_factorial_le {n : ℕ} (h : n ! ≤ 2 ^ 63) : n ≤ 20 := by
  by_contra hn
  have hle : 21 ! ≤ n ! := Nat.factorial_le (by omega)
  have hlt : 2 ^ 63 < 21 ! := by norm_num [Nat.factorial]
  omega

/-- Small matrices of bounded integers can be stored. -/
lemma Shape.fits_of_le_twenty {w : IntWidth} {n : ℕ} (h : n ≤ 20) (hn : 1 ≤ n) :
    Shape.Fits (Element.bytes (BoundedInt w)) ⟨n, n⟩ := by
  have hbytes : Element.bytes (BoundedInt w) ≤ 8 := by
    cases w <;> decide
  have hstore : n * n * Element.bytes (BoundedInt w) ≤ 20 * 20 * 8 :=
    Nat.mul_le_mul (Nat.mul_le_mul h h) hbytes
  exact ⟨hn, hn, hstore.trans (by decide)⟩

namespace DenseMatrix

/-- **Where determinants do not overflow**: for a square matrix of bounded integers, the determinant
and every cofactor are computed if the factorial of the order, times the power of the bound of the
entries with the order, is below the limit. -/
theorem determinant_eq_ok_of_bound {w : IntWidth} {n : ℕ} {x : Grid (BoundedInt w) n n} {α : ℤ}
    (hα : 1 ≤ α) (hx : ∀ i j, |(x.entry i j).val| ≤ α) (h : n ! * α ^ n ≤ w.limit - 1) :
    (∃ d, determinant ⟨n, n, x⟩ = .ok d ∧ |d.val| ≤ n ! * α ^ n) ∧
      ∃ y : Grid (BoundedInt w) n n, adjugate ⟨n, n, x⟩ = .ok ⟨n, n, y⟩ ∧
        ∀ i j, |(y.entry i j).val| ≤ (n - 1)! * α ^ (n - 1) := by
  lift α to ℕ using by omega
  have hbound : n ! * α ^ n ≤ w.greatest := by
    rw [← Nat.cast_le (α := ℤ), w.natCast_greatest]
    push_cast
    exact h
  have hsmall : n ≤ 20 := by
    refine le_twenty_of_factorial_le ?_
    have hle : n ! ≤ n ! * α ^ n := Nat.le_mul_of_pos_right _ (Nat.pow_pos (by omega))
    have hlimit := w.limit_le
    have hgreatest := w.natCast_greatest
    omega
  have hfits : ∀ {k : ℕ}, 1 ≤ k → k ≤ n → Shape.Fits (Element.bytes (BoundedInt w)) ⟨k, k⟩ :=
    fun hk hkn => Shape.fits_of_le_twenty (hkn.trans hsmall) hk
  have hkeeps : KeepsBounds w.greatest fun A (x : BoundedInt w) => |x.val| ≤ A :=
    magnitudes_abs.keepsBounds fun _ => BoundedInt.inRange_of_abs_le
  obtain ⟨d, hd, hdbound⟩ := hkeeps.exists_det_eq_ok (by omega) hx hbound
  obtain ⟨y, hy, hybound⟩ := hkeeps.exists_adjugate_eq_ok (by omega) hx hbound
  refine ⟨⟨d, ?_, by exact_mod_cast hdbound⟩, y, ?_, fun i j => by exact_mod_cast hybound i j⟩
  · rw [determinant_mk x fun _ => hfits (by omega) (Nat.sub_le n 1), hd]
    rfl
  · rw [adjugate_mk x fun _ => hfits (by omega) (Nat.sub_le n 1), hy]
    rfl

/-- The greatest entries of 32 bits that the bound admits at order three. -/
theorem determinant_eq_ok_of_bound_of_order_three :
    ∃ x : Grid (BoundedInt .w32) 3 3, (∀ i j, |(x.entry i j).val| ≤ 710) ∧
      3 ! * (710 : ℤ) ^ 3 ≤ IntWidth.w32.limit - 1 ∧
      ¬ 3 ! * (711 : ℤ) ^ 3 ≤ IntWidth.w32.limit - 1 ∧
      (∃ d, determinant ⟨3, 3, x⟩ = .ok d ∧ |d.val| ≤ 3 ! * 710 ^ 3) ∧
        ∃ y : Grid (BoundedInt .w32) 3 3, adjugate ⟨3, 3, x⟩ = .ok ⟨3, 3, y⟩ ∧
          ∀ i j, |(y.entry i j).val| ≤ (3 - 1)! * 710 ^ (3 - 1) := by
  let x : Grid (BoundedInt .w32) 3 3 := .ofVector #v[⟨710, by decide, by decide⟩,
    ⟨-710, by decide, by decide⟩, ⟨710, by decide, by decide⟩, ⟨710, by decide, by decide⟩,
    ⟨710, by decide, by decide⟩, ⟨-710, by decide, by decide⟩, ⟨-710, by decide, by decide⟩,
    ⟨710, by decide, by decide⟩, ⟨710, by decide, by decide⟩]
  have hx : ∀ i j, |(x.entry i j).val| ≤ 710 := by decide +kernel
  exact ⟨x, hx, by decide, by decide,
    determinant_eq_ok_of_bound (by decide) hx (by decide)⟩

end DenseMatrix

end MatrixReckoner
