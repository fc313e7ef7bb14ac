import MatrixReckoner.Proofs.Arithmetic.Determinant
import MatrixReckoner.Proofs.Arithmetic.Values

/-!
The adjugate of a matrix times the matrix, in either order, is the determinant times the identity.

* `Grid.values_of_adjugate`: an adjugate that is computed is that of the matrix of the values.
* `DenseMatrix.exists_adjugate_eq_ok`: over numbers that have every value of the ring the adjugate
  of a matrix is always computed.
* `DenseMatrix.multiply_adjugate`: both products of a matrix and its adjugate.
-/

namespace MatrixReckoner

open Exact (value)

variable {α R : Type} [Element α] [CommRing R] [Exact α R] {n : ℕ}

namespace Grid

/-! ### Adjugates -/

/-- A cofactor is the determinant of a minor, with the sign of its position. -/
lemma value_of_cofactor {g : Grid α (n + 1) (n + 1)} {i j : Fin (n + 1)} {x : α}
    (h : g.cofactor i j = .ok x) :
    value x = (-1) ^ (i.val + j.val) * (g.values.submatrix i.succAbove j.succAbove).det := by
  obtain ⟨m, hm, h⟩ := bind_eq_ok_iff.mp h
  rw [neg_one_pow_mul_eq_ite, ← values_minor, ← value_of_det hm]
  split at h
  · next hij =>
    cases h
    rw [if_pos hij]
  · next hij => rw [if_neg hij, Exact.sub_eq_ok_iff.mp h, Exact.value_zero, zero_sub]

/-- **An adjugate that is computed is that of the matrix of the values.** -/
theorem values_of_adjugate {g b : Grid α n n} (h : g.adjugate = .ok b) :
    b.values = g.values.adjugate := by
  cases n with
  | zero => exact Subsingleton.elim _ _
  | succ n =>
      obtain ⟨c, hc, rfl⟩ := map_eq_ok_iff.mp h
      ext i j
      rw [Matrix.adjugate_fin_succ_eq_det_submatrix, values_apply, entry_transpose,
        value_of_cofactor (tabulate_eq_ok_iff.mp hc j i)]

end Grid

namespace DenseMatrix

open MatrixError (ofArithmetic_eq_ok_iff)

/-! ### Determinant times identity -/

/-- Over numbers that have every value of the ring and no storage size every adjugate is
computed. -/
lemma exists_adjugate_eq_ok (hall : ∀ r : R, InRange α r) (hbytes : Element.bytes α = 0)
    (x : Grid α n n) :
    ∃ y : Grid α n n, adjugate ⟨n, n, x⟩ = .ok ⟨n, n, y⟩ ∧ y.values = x.values.adjugate := by
  obtain ⟨y, hy⟩ := (Unfailing.of_inRange hall).exists_adjugate_eq_ok x
    fun hn => .of_bytes_eq_zero hbytes (by omega)
  obtain ⟨y', hy', heq⟩ := exists_of_adjugate_eq_ok hy
  cases heq
  exact ⟨y, hy, Grid.values_of_adjugate hy'⟩

/-- The identity times a number is the matrix with the value of the number on the diagonal. -/
lemma scale_identity_eq_ok {d : α} {z : Grid α n n}
    (h : z.values = value d • (1 : Matrix (Fin n) (Fin n) R)) :
    scale ⟨n, n, .identity n⟩ d = .ok ⟨n, n, z⟩ := by
  have hscale : (Grid.identity n).scale d = .ok z := by
    rw [Grid.scale_eq_ok_iff, Grid.values_identity, h]
  rw [scale, mapM]
  exact bind_eq_ok_iff.mpr ⟨z, ofArithmetic_eq_ok_iff.mpr hscale, rfl⟩

include R in
/-- Both products of a matrix and its adjugate, where they are computed. -/
lemma scale_identity_of_multiply_adjugate {x : Grid α n n} {d : α} {b c : DenseMatrix α}
    (hd : determinant ⟨n, n, x⟩ = .ok d) (hb : adjugate ⟨n, n, x⟩ = .ok b)
    (hc : multiply ⟨n, n, x⟩ b = .ok c ∨ multiply b ⟨n, n, x⟩ = .ok c) :
    scale ⟨n, n, .identity n⟩ d = .ok c := by
  obtain ⟨y, hy, rfl⟩ := exists_of_adjugate_eq_ok hb
  have hadjugate := Grid.values_of_adjugate hy
  have hdet := Grid.value_of_det (det_eq_ok_of_determinant hd)
  rcases hc with hc | hc
  · obtain ⟨z, rfl, hz⟩ := (computes_multiply rfl rfl).exists_of_eq_ok hc
    refine scale_identity_eq_ok ?_
    rw [hz, hadjugate, Matrix.mul_adjugate, hdet]
  · obtain ⟨z, rfl, hz⟩ := (computes_multiply rfl rfl).exists_of_eq_ok hc
    refine scale_identity_eq_ok ?_
    rw [hz, hadjugate, Matrix.adjugate_mul, hdet]

/-- **A matrix times its adjugate, and the adjugate times the matrix, is the determinant times the
identity**, whichever method computes the products: for bounded integers where no operation
overflows, and for unbounded integers always, at every order. -/
theorem multiply_adjugate :
    (∀ (w : IntWidth) (n : ℕ) (x : Grid (BoundedInt w) n n) (d : BoundedInt w)
      (b c : DenseMatrix (BoundedInt w)), determinant ⟨n, n, x⟩ = .ok d →
      adjugate ⟨n, n, x⟩ = .ok b →
        (multiply ⟨n, n, x⟩ b = .ok c → scale ⟨n, n, .identity n⟩ d = .ok c) ∧
          (multiply b ⟨n, n, x⟩ = .ok c → scale ⟨n, n, .identity n⟩ d = .ok c)) ∧
    ∀ (n : ℕ) (x : Grid ℤ n n), ∃ d b c, determinant ⟨n, n, x⟩ = .ok d ∧
      adjugate ⟨n, n, x⟩ = .ok b ∧ multiply ⟨n, n, x⟩ b = .ok c ∧ multiply b ⟨n, n, x⟩ = .ok c ∧
        scale ⟨n, n, .identity n⟩ d = .ok c := by
  refine ⟨fun w n x d b c hd hb => ⟨fun hc => ?_, fun hc => ?_⟩, fun n x => ?_⟩
  · exact scale_identity_of_multiply_adjugate hd hb (Or.inl hc)
  · exact scale_identity_of_multiply_adjugate hd hb (Or.inr hc)
  obtain ⟨d, hdet⟩ := exists_determinant_eq_ok ExactInt.inRange rfl x
  obtain ⟨y, hadjugate, -⟩ := exists_adjugate_eq_ok ExactInt.inRange rfl x
  obtain ⟨c, hc⟩ := exists_multiply_eq_ok ExactInt.inRange x y
  obtain ⟨c', hc'⟩ := exists_multiply_eq_ok ExactInt.inRange y x
  have hscale := scale_identity_of_multiply_adjugate hdet hadjugate (Or.inl hc)
  have hscale' := scale_identity_of_multiply_adjugate hdet hadjugate (Or.inr hc')
  obtain rfl : c = c' := Except.ok.inj (hscale.symm.trans hscale')
  exact ⟨d, _, c, hdet, hadjugate, hc, hc', hscale⟩

/-- The matrix of order two with the rows 1 2 and 3 4, and its determinant -2. -/
theorem multiply_adjugate_of_order_two :
    ∃ (x : Grid (BoundedInt .w32) 2 2) (d : BoundedInt .w32) (b c : DenseMatrix (BoundedInt .w32)),
      determinant ⟨2, 2, x⟩ = .ok d ∧ d.val = -2 ∧ adjugate ⟨2, 2, x⟩ = .ok b ∧
        multiply ⟨2, 2, x⟩ b = .ok c ∧ multiply b ⟨2, 2, x⟩ = .ok c ∧
          scale ⟨2, 2, .identity 2⟩ d = .ok c := by
  let x : Grid (BoundedInt .w32) 2 2 := .ofVector #v[.one, ⟨2, by decide, by decide⟩,
    ⟨3, by decide, by decide⟩, ⟨4, by decide, by decide⟩]
  let b : Grid (BoundedInt .w32) 2 2 := .ofVector #v[⟨4, by decide, by decide⟩,
    ⟨-2, by decide, by decide⟩, ⟨-3, by decide, by decide⟩, .one]
  let d : BoundedInt .w32 := ⟨-2, by decide, by decide⟩
  let c : Grid (BoundedInt .w32) 2 2 := .ofVector #v[d, .zero, .zero, d]
  have hd : determinant ⟨2, 2, x⟩ = .ok d := by decide +kernel
  have hb : adjugate ⟨2, 2, x⟩ = .ok ⟨2, 2, b⟩ := by decide +kernel
  have hc : multiply ⟨2, 2, x⟩ ⟨2, 2, b⟩ = .ok ⟨2, 2, c⟩ := by decide +kernel
  have hc' : multiply ⟨2, 2, b⟩ ⟨2, 2, x⟩ = .ok ⟨2, 2, c⟩ := by decide +kernel
  exact ⟨x, d, _, _, hd, rfl, hb, hc, hc', (multiply_adjugate.1 .w32 2 x d _ _ hd hb).2 hc'⟩

end DenseMatrix

end MatrixReckoner
