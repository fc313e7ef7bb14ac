import MatrixReckoner.Proofs.Arithmetic.EntrySums
import MatrixReckoner.Proofs.Arithmetic.Unfailing
import MatrixReckoner.Proofs.Arithmetic.Values

/-!
Products of transposed matrices, in the opposite order.

* `MulCommutes`: the product of two numbers does not depend on their order, as it does not for
  bounded integers and for floating-point numbers.
* `Grid.transpose_product_eq_ok_iff`: this law alone transposes the classical product, whose entries
  add the same terms in the same order.
* `DenseMatrix.Computes.transpose`: transposes of computed matrices.
* `DenseMatrix.transpose_products`: transposition reverses products, by whichever method.
-/

namespace MatrixReckoner

/-! ### Commuting factors -/

/-- The product of two numbers, or its overflow, does not depend on their order. -/
def MulCommutes (α : Type) [Element α] : Prop :=
  ∀ x y : α, Element.mul x y = Element.mul y x

lemma BoundedInt.mulCommutes (w : IntWidth) : MulCommutes (BoundedInt w) := fun x y =>
  congrArg (checked .mul) (Int.mul_comm x.val y.val)

open Float.Model (Format UnpackedFloat)

/-- Signs and significands commute as factors, exponents as summands. -/
lemma unpackedFloat_mul_comm (f : Format) (u v : UnpackedFloat) :
    UnpackedFloat.mul f u v = UnpackedFloat.mul f v u := by
  have hsign : ∀ s t : UnpackedFloat.Sign, s * t = t * s := by
    intro s t
    cases s <;> cases t <;> rfl
  cases u <;> cases v <;> simp only [UnpackedFloat.mul, hsign, Nat.mul_comm, Int.add_comm]

lemma Double.mulCommutes : MulCommutes Float := fun x y =>
  congrArg (fun u => Except.ok (Float.ofModel (Float.Model.pack u)))
    (unpackedFloat_mul_comm .binary64 x.toModel.unpack y.toModel.unpack)

lemma Single.mulCommutes : MulCommutes Float32 := fun x y =>
  congrArg (fun u => Except.ok (Float32.ofModel (Float32.Model.pack u)))
    (unpackedFloat_mul_comm .binary32 x.toModel.unpack y.toModel.unpack)

/-! ### The classical product -/

section Product

variable {α : Type} [Element α] {m k n : ℕ}

lemma Grid.entrySum_comm (hα : MulCommutes α) (u v : Fin k → α) :
    entrySum u v = entrySum v u := by
  simp only [entrySum, hα (u _)]

/-- The classical product of the transposed factors is the transposed product. -/
lemma Grid.transpose_product_eq_ok_iff (hα : MulCommutes α) {x : Grid α m k} {y : Grid α k n}
    {z : Grid α m n} : y.transpose.product x.transpose = .ok z.transpose ↔ x.product y = .ok z := by
  rw [product_eq_ok_iff_entrySum, product_eq_ok_iff_entrySum, forall_comm]
  refine forall_congr' fun i => forall_congr' fun j => ?_
  have hrow : (x.transpose.entry · i) = x.entry i := funext fun p => entry_transpose x p i
  have hcolumn : y.transpose.entry j = (y.entry · j) := funext fun p => entry_transpose y j p
  rw [hrow, hcolumn, entrySum_comm hα, entry_transpose]

end Product

namespace DenseMatrix

open MatrixError (ofArithmetic ofArithmetic_eq_ok_iff)
open Grid (side)

section Product

variable {α : Type} [Element α] {a b c : DenseMatrix α}

lemma transpose_product_eq_ok (hα : MulCommutes α) (h : a.product b = .ok c) :
    b.transpose.product a.transpose = .ok c.transpose := by
  obtain ⟨m, k, x⟩ := a
  obtain ⟨k', n, y⟩ := b
  by_cases hfits : k = k'
  · subst hfits
    rw [product_mk, map_eq_ok_iff] at h
    obtain ⟨z, hz, rfl⟩ := h
    refine (product_mk y.transpose x.transpose).trans ?_
    rw [(Grid.transpose_product_eq_ok_iff hα).mpr (ofArithmetic_eq_ok_iff.mp hz)]
    rfl
  · rw [product, dif_neg hfits] at h
    cases h

/-- Transposing the transposed factors and their product gives the product back. -/
lemma transpose_product_eq_ok_iff (hα : MulCommutes α) :
    a.product b = .ok c ↔ b.transpose.product a.transpose = .ok c.transpose := by
  have htwice : ∀ d : DenseMatrix α, d.transpose.transpose = d := fun d => by
    rw [transpose, transpose, Grid.transpose_transpose]
  refine ⟨transpose_product_eq_ok hα, fun h => ?_⟩
  rw [← htwice a, ← htwice b, ← htwice c]
  exact transpose_product_eq_ok hα h

/-- Numbers whose arithmetic never fails have both products. -/
lemma exists_transpose_product (hα : MulCommutes α) (hnever : Unfailing α) (h : a.cols = b.rows) :
    ∃ c, a.product b = .ok c ∧ b.transpose.product a.transpose = .ok c.transpose := by
  obtain ⟨c, hc, -⟩ := (answers_product h).exists_eq_ok hnever.not_overflows
  exact ⟨c, hc, transpose_product_eq_ok hα hc⟩

end Product

/-! ### Both products -/

section Exact

variable {α R : Type} [Element α] [CommRing R] [Exact α R] {m k n : ℕ}

lemma values_transpose (x : Grid α m n) :
    x.transpose.values = (x.values : Matrix _ _ R).transpose :=
  Matrix.ext fun j i => congrArg Exact.value (Grid.entry_transpose x j i)

/-- The transpose of a computed matrix has the transposed values. -/
lemma Computes.transpose {v : Matrix (Fin m) (Fin n) R} {p : Except MatrixError (DenseMatrix α)}
    (hp : Computes v p) : Computes v.transpose (DenseMatrix.transpose <$> p) := by
  cases hp with
  | ok z hz =>
    subst hz
    exact .ok z.transpose (values_transpose z)
  | overflow o => exact .overflow o

/-- Two products agree up to transposition if they have the values of a matrix product and of the
product of the transposed factors. -/
lemma Computes.agree_transpose {u : Matrix (Fin m) (Fin k) R} {v : Matrix (Fin k) (Fin n) R}
    {p q : Except MatrixError (DenseMatrix α)} (hp : Computes (u * v) p)
    (hq : Computes (v.transpose * u.transpose) q) : Agree (DenseMatrix.transpose <$> p) q := by
  have htranspose := hp.transpose
  rw [Matrix.transpose_mul] at htranspose
  exact htranspose.agree hq

end Exact

/-- **Transposition reverses products.**  Over bounded integers, where neither of the two products
overflows, both are computed and the transpose of the first is the second: with the method that the
shapes choose, and with Strassen's at every order that is a power of two.  The classical product is
the transpose of the classical product of the transposed factors over all numbers whose
multiplication commutes, without another law; in particular over floating-point numbers, whose
products do not fail. -/
theorem transpose_products :
    (∀ (w : IntWidth) {m k n : ℕ} (x : Grid (BoundedInt w) m k) (y : Grid (BoundedInt w) k n),
      Agree (transpose <$> multiply ⟨m, k, x⟩ ⟨k, n, y⟩)
        (multiply (transpose ⟨k, n, y⟩) (transpose ⟨m, k, x⟩))) ∧
    (∀ (w : IntWidth) (e : ℕ) (x y : Grid (BoundedInt w) (side e) (side e)),
      Agree (transpose <$> strassen ⟨side e, side e, x⟩ ⟨side e, side e, y⟩)
        (strassen (transpose ⟨side e, side e, y⟩) (transpose ⟨side e, side e, x⟩))) ∧
    (∀ (α : Type) [Element α], MulCommutes α → ∀ a b c : DenseMatrix α,
      a.product b = .ok c ↔ b.transpose.product a.transpose = .ok c.transpose) ∧
    (∀ a b : DenseMatrix Float, a.cols = b.rows →
      ∃ c, a.product b = .ok c ∧ b.transpose.product a.transpose = .ok c.transpose) ∧
    ∀ a b : DenseMatrix Float32, a.cols = b.rows →
      ∃ c, a.product b = .ok c ∧ b.transpose.product a.transpose = .ok c.transpose := by
  refine ⟨fun w m k n x y => ?_, fun w e x y => ?_, ?_, ?_, ?_⟩
  · exact (computes_multiply rfl rfl).agree_transpose
      (computes_multiply (values_transpose y) (values_transpose x))
  · exact (computes_strassen rfl rfl).agree_transpose
      (computes_strassen (values_transpose y) (values_transpose x))
  · exact fun α _ hα a b c => transpose_product_eq_ok_iff hα
  · exact fun a b h => exists_transpose_product Double.mulCommutes .double h
  · exact fun a b h => exists_transpose_product Single.mulCommutes .single h

/-- Two matrices of order two, which are multiplied by Strassen's method, and a matrix of two rows
and three columns. -/
theorem transpose_products_of_two_methods :
    (∃ (x y : Grid (BoundedInt .w32) 2 2) (c : DenseMatrix (BoundedInt .w32)),
      usesStrassen ⟨2, 2, x⟩ ⟨2, 2, y⟩ = true ∧
      transpose <$> multiply ⟨2, 2, x⟩ ⟨2, 2, y⟩ = .ok c ∧
      multiply (transpose ⟨2, 2, y⟩) (transpose ⟨2, 2, x⟩) = .ok c) ∧
    ∃ (x : Grid (BoundedInt .w32) 2 2) (z : Grid (BoundedInt .w32) 2 3)
      (c : DenseMatrix (BoundedInt .w32)), product ⟨2, 2, x⟩ ⟨2, 3, z⟩ = .ok c ∧
      product (transpose ⟨2, 3, z⟩) (transpose ⟨2, 2, x⟩) = .ok c.transpose := by
  let x : Grid (BoundedInt .w32) 2 2 := .ofVector #v[.one, ⟨2, by decide, by decide⟩,
    ⟨-3, by decide, by decide⟩, ⟨4, by decide, by decide⟩]
  let y : Grid (BoundedInt .w32) 2 2 := .ofVector #v[.zero, .one, .one,
    ⟨5, by decide, by decide⟩]
  let z : Grid (BoundedInt .w32) 2 3 := .ofVector #v[.one, .zero, ⟨5, by decide, by decide⟩,
    ⟨6, by decide, by decide⟩, ⟨-7, by decide, by decide⟩, .one]
  let xz : Grid (BoundedInt .w32) 2 3 := .ofVector #v[⟨13, by decide, by decide⟩,
    ⟨-14, by decide, by decide⟩, ⟨7, by decide, by decide⟩, ⟨21, by decide, by decide⟩,
    ⟨-28, by decide, by decide⟩, ⟨-11, by decide, by decide⟩]
  have h : OverflowFree (transpose <$> multiply ⟨2, 2, x⟩ ⟨2, 2, y⟩) := fun o => by
    cases o <;> decide +kernel
  have h' : OverflowFree (multiply (transpose ⟨2, 2, y⟩) (transpose ⟨2, 2, x⟩)) := fun o => by
    cases o <;> decide +kernel
  have hproduct : product ⟨2, 2, x⟩ ⟨2, 3, z⟩ = .ok ⟨2, 3, xz⟩ := by decide +kernel
  obtain ⟨c, hc, hc'⟩ := transpose_products.1 .w32 x y h h'
  exact ⟨⟨x, y, c, by decide, hc, hc'⟩, x, z, _, hproduct,
    (transpose_products.2.2.1 _ (BoundedInt.mulCommutes .w32) _ _ _).mp hproduct⟩

end DenseMatrix

end MatrixReckoner
