import MatrixReckoner.Proofs.Arithmetic.Quarters
import MatrixReckoner.Proofs.Arithmetic.Strassen

/-!
The two products of matrices, and the choice between them.

* `DenseMatrix.usesStrassen_iff`: where Strassen's product is chosen.
* `DenseMatrix.product_mk`: classical products of matrices are those of grids.
* `DenseMatrix.eq_of_strassen_of_product`, `DenseMatrix.exists_strassen_eq_product`: Strassen's
  product is the classical one, where neither overflows.
* `DenseMatrix.StrassenFits`: the choice of Strassen's product adds no overflow to the classical
  one.
-/

namespace MatrixReckoner.DenseMatrix

open MatrixError (ofArithmetic ofArithmetic_eq_ok_iff)
open Grid (side IsSide)

variable {α : Type}

/-- Strassen's product is chosen for matrices of one order that is a power of two and not one. -/
lemma usesStrassen_iff {a b : DenseMatrix α} :
    usesStrassen a b ↔ ∃ (e : ℕ) (x y : Grid α (side e) (side e)), 0 < e ∧
      a = ⟨side e, side e, x⟩ ∧ b = ⟨side e, side e, y⟩ := by
  simp only [usesStrassen, isSquare, Bool.and_eq_true, decide_eq_true_eq]
  refine ⟨?_, ?_⟩
  · rintro ⟨⟨ha, hb⟩, htwo, hside⟩
    obtain ⟨e, x, y, rfl, rfl⟩ := exists_side ha hb hside
    exact ⟨e, x, y, one_lt_side_iff.mp htwo, rfl, rfl⟩
  · rintro ⟨e, x, y, he, rfl, rfl⟩
    exact ⟨⟨rfl, rfl⟩, one_lt_side_iff.mpr he, isSide_side e⟩

lemma shape_of_usesStrassen {a b : DenseMatrix α} (h : usesStrassen a b) :
    a.rows = a.cols ∧ b.shape = a.shape ∧ ∃ e, a.rows = 2 ^ e := by
  obtain ⟨e, x, y, -, rfl, rfl⟩ := usesStrassen_iff.mp h
  exact ⟨rfl, rfl, e, side_eq_two_pow e⟩

variable [Element α]

/-! ### Products of matrices and of grids -/

/-- The classical product of grids of fitting shapes. -/
lemma product_mk {m k n : ℕ} (x : Grid α m k) (y : Grid α k n) :
    product ⟨m, k, x⟩ ⟨k, n, y⟩ = (⟨m, n, ·⟩) <$> ofArithmetic (x.product y) := by
  rw [product, dif_pos rfl, Grid.cast_rfl]
  rfl

/-! ### Strassen's product and the classical one -/

section Exact

variable {R : Type} [CommRing R] [Exact α R]

include R in
/-- Where both products succeed, they are one matrix. -/
lemma eq_of_strassen_of_product {a b c d : DenseMatrix α} (h : a.strassen b = .ok c)
    (h' : a.product b = .ok d) : c = d := by
  obtain ⟨e, x, y, z, rfl, rfl, rfl, hz⟩ := exists_of_strassen_eq_ok h
  rw [product_mk, map_eq_ok_iff] at h'
  obtain ⟨z', hz', rfl⟩ := h'
  have hvalues : z.values = x.values * y.values :=
    (((Grid.strassen_yields e rfl rfl).eq_ok_iff z).mp hz).2
  have hvalues' : z'.values = x.values * y.values :=
    Grid.values_of_product (ofArithmetic_eq_ok_iff.mp hz')
  rw [Grid.values_injective (hvalues.trans hvalues'.symm)]

/-- Numbers that have every value of the ring have both products. -/
lemma exists_strassen_eq_product (hall : ∀ r : R, InRange α r) {e : ℕ}
    (x y : Grid α (side e) (side e)) :
    ∃ c, strassen ⟨side e, side e, x⟩ ⟨side e, side e, y⟩ = .ok c ∧
      product ⟨side e, side e, x⟩ ⟨side e, side e, y⟩ = .ok c := by
  have hwithin : ∀ {m n : ℕ} (v : Matrix (Fin m) (Fin n) R), Within (InRange α) v :=
    fun v i j => hall (v i j)
  have hfits : ∀ (e : ℕ) (u v : Matrix (Fin (side e)) (Fin (side e)) R),
      Grid.StrassenFits (InRange α) e u v := by
    intro e
    induction e with
    | zero => exact fun u v => hwithin _
    | succ k ih =>
        intro u v
        simp [Grid.StrassenFits, hwithin, ih]
  have hyields := Grid.strassen_yields e (rfl : x.values = _) (rfl : y.values = _)
  obtain ⟨z, hz⟩ := hyields.exists_values (hfits e _ _)
  have hstrassen : Grid.strassen e x y = .ok z := (hyields.eq_ok_iff z).mpr ⟨hfits e _ _, hz⟩
  obtain ⟨z', hproduct⟩ := Grid.exists_product_eq_ok hall x y
  obtain rfl : z = z' :=
    Grid.values_injective (hz.trans (Grid.values_of_product hproduct).symm)
  refine ⟨⟨side e, side e, z⟩, ?_, ?_⟩
  · rw [strassen_mk, hstrassen]
    rfl
  · rw [product_mk, hproduct]
    rfl

end Exact

/-- **Strassen's product is the classical product**: for bounded integers where neither overflows,
and for unbounded integers always, at every order that is a power of two. -/
theorem strassen_eq_product :
    (∀ (w : IntWidth) (a b c d : DenseMatrix (BoundedInt w)), a.strassen b = .ok c →
      a.product b = .ok d → c = d) ∧
    ∀ (e : ℕ) (a b : DenseMatrix ℤ), a.shape = ⟨2 ^ e, 2 ^ e⟩ → b.shape = ⟨2 ^ e, 2 ^ e⟩ →
      ∃ c, a.strassen b = .ok c ∧ a.product b = .ok c := by
  refine ⟨fun w a b c d h h' => eq_of_strassen_of_product h h', fun e a b ha hb => ?_⟩
  rw [← side_eq_two_pow] at ha hb
  obtain ⟨m, n, x⟩ := a
  obtain ⟨m', n', y⟩ := b
  obtain ⟨rfl, rfl⟩ := Shape.mk.inj ha
  obtain ⟨rfl, rfl⟩ := Shape.mk.inj hb
  exact exists_strassen_eq_product ExactInt.inRange x y

/-- The matrix of ones of order two times the identity. -/
theorem strassen_eq_product_ones :
    (∃ c d : DenseMatrix (BoundedInt .w32),
      strassen ⟨2, 2, .replicate 2 2 .one⟩ ⟨2, 2, .identity 2⟩ = .ok c ∧
      product ⟨2, 2, .replicate 2 2 .one⟩ ⟨2, 2, .identity 2⟩ = .ok d ∧ c = d) ∧
    ∃ c : DenseMatrix ℤ, strassen ⟨2, 2, .replicate 2 2 1⟩ ⟨2, 2, .identity 2⟩ = .ok c ∧
      product ⟨2, 2, .replicate 2 2 1⟩ ⟨2, 2, .identity 2⟩ = .ok c := by
  have h : strassen ⟨2, 2, .replicate 2 2 .one⟩ ⟨2, 2, .identity 2⟩ =
      .ok (⟨2, 2, .replicate 2 2 .one⟩ : DenseMatrix (BoundedInt .w32)) := by decide +kernel
  have h' : product ⟨2, 2, .replicate 2 2 .one⟩ ⟨2, 2, .identity 2⟩ =
      .ok (⟨2, 2, .replicate 2 2 .one⟩ : DenseMatrix (BoundedInt .w32)) := by decide +kernel
  exact ⟨⟨_, _, h, h', strassen_eq_product.1 .w32 _ _ _ _ h h'⟩,
    strassen_eq_product.2 1 _ _ rfl rfl⟩

/-! ### The choice between the two -/

/-- Where Strassen's product is chosen for two matrices, every intermediate result is in range. -/
def StrassenFits {w : IntWidth} (a b : DenseMatrix (BoundedInt w)) : Prop :=
  ∀ (e : ℕ) (x y : Grid (BoundedInt w) (side e) (side e)), 0 < e → a = ⟨side e, side e, x⟩ →
    b = ⟨side e, side e, y⟩ →
    Grid.StrassenFits (fun r => -w.limit ≤ r ∧ r < w.limit) e x.values y.values

lemma strassenFits_mk_iff {w : IntWidth} {e : ℕ} {x y : Grid (BoundedInt w) (side e) (side e)}
    (he : 0 < e) :
    StrassenFits ⟨side e, side e, x⟩ ⟨side e, side e, y⟩ ↔
      Grid.StrassenFits (InRange (BoundedInt w)) e x.values y.values := by
  have hrange : InRange (BoundedInt w) = fun r => -w.limit ≤ r ∧ r < w.limit :=
    funext fun r => propext BoundedInt.inRange_iff
  rw [hrange]
  refine ⟨?_, ?_⟩
  · exact fun h => h e x y he rfl rfl
  · intro h e' x' y' _ hx hy
    obtain rfl : e = e' := side_injective (congrArg rows hx)
    cases hx
    cases hy
    exact h

/-- **When the choice of Strassen's product adds an overflow**: where the classical product of two
matrices succeeds, their product is the same exactly if no intermediate result of Strassen's product
leaves the range, where it is chosen; otherwise the product fails with an overflow. -/
theorem multiply_eq_ok_iff {w : IntWidth} {a b c : DenseMatrix (BoundedInt w)}
    (h : a.product b = .ok c) :
    (a.multiply b = .ok c ↔ a.StrassenFits b) ∧
      (¬ a.StrassenFits b → ∃ o, a.multiply b = .error (.overflow o)) := by
  by_cases huses : usesStrassen a b
  · obtain ⟨e, x, y, he, rfl, rfl⟩ := usesStrassen_iff.mp huses
    have hmultiply : multiply ⟨side e, side e, x⟩ ⟨side e, side e, y⟩ =
        strassen ⟨side e, side e, x⟩ ⟨side e, side e, y⟩ := if_pos huses
    have hyields := Grid.strassen_yields e (rfl : x.values = _) (rfl : y.values = _)
    rw [hmultiply, strassenFits_mk_iff he]
    refine ⟨?_, ?_⟩
    · constructor
      · intro hstrassen
        rw [strassen_mk, map_eq_ok_iff] at hstrassen
        obtain ⟨z, hz, -⟩ := hstrassen
        exact ((hyields.eq_ok_iff z).mp (ofArithmetic_eq_ok_iff.mp hz)).1
      · intro hfits
        obtain ⟨z, hz⟩ := hyields.exists_values hfits
        have hstrassen : strassen ⟨side e, side e, x⟩ ⟨side e, side e, y⟩ =
            .ok ⟨side e, side e, z⟩ := by
          rw [strassen_mk, (hyields.eq_ok_iff z).mpr ⟨hfits, hz⟩]
          rfl
        rw [hstrassen, eq_of_strassen_of_product hstrassen h]
    · intro hfits
      rw [strassen_mk]
      cases hstrassen : Grid.strassen e x y with
      | ok z => exact absurd ((hyields.eq_ok_iff z).mp hstrassen).1 hfits
      | error o => exact ⟨o, rfl⟩
  · have hmultiply : a.multiply b = a.product b := if_neg huses
    have hfits : a.StrassenFits b := fun e x y he hx hy =>
      absurd (usesStrassen_iff.mpr ⟨e, x, y, he, hx, hy⟩) huses
    exact ⟨⟨fun _ => hfits, fun _ => hmultiply.trans h⟩, absurd hfits⟩

/-- The largest integer next to a one, above zeros, times the zero matrix: the classical product is
zero, but the sum of the two overflows. -/
theorem multiply_overflow_of_zero_product :
    product ⟨2, 2, .ofVector #v[⟨2147483647, by decide, by decide⟩, .one, .zero, .zero]⟩
        ⟨2, 2, .replicate 2 2 .zero⟩ =
      .ok (⟨2, 2, .replicate 2 2 .zero⟩ : DenseMatrix (BoundedInt .w32)) ∧
    multiply ⟨2, 2, .ofVector #v[⟨2147483647, by decide, by decide⟩, .one, .zero, .zero]⟩
        (⟨2, 2, .replicate 2 2 .zero⟩ : DenseMatrix (BoundedInt .w32)) =
      .error (.overflow .add) := by
  constructor <;> decide +kernel

/-- Both cases occur: with ones, and with the largest integer next to a one. -/
theorem multiply_eq_ok_iff_of_rows :
    (∃ a b c : DenseMatrix (BoundedInt .w32), a.product b = .ok c ∧ a.StrassenFits b ∧
      a.multiply b = .ok c) ∧
    ∃ a b c : DenseMatrix (BoundedInt .w32), a.product b = .ok c ∧ ¬ a.StrassenFits b ∧
      ∃ o, a.multiply b = .error (.overflow o) := by
  refine ⟨?_, ?_⟩
  · have h : product ⟨2, 2, .replicate 2 2 .one⟩ ⟨2, 2, .replicate 2 2 .zero⟩ =
        .ok (⟨2, 2, .replicate 2 2 .zero⟩ : DenseMatrix (BoundedInt .w32)) := by decide +kernel
    have h' : multiply ⟨2, 2, .replicate 2 2 .one⟩ ⟨2, 2, .replicate 2 2 .zero⟩ =
        .ok (⟨2, 2, .replicate 2 2 .zero⟩ : DenseMatrix (BoundedInt .w32)) := by decide +kernel
    exact ⟨_, _, _, h, (multiply_eq_ok_iff h).1.mp h', h'⟩
  · have h : product ⟨2, 2, .ofVector #v[⟨2147483647, by decide, by decide⟩, .one, .zero, .zero]⟩
        ⟨2, 2, .replicate 2 2 .zero⟩ =
          .ok (⟨2, 2, .replicate 2 2 .zero⟩ : DenseMatrix (BoundedInt .w32)) := by decide +kernel
    have hne : multiply
        ⟨2, 2, .ofVector #v[⟨2147483647, by decide, by decide⟩, .one, .zero, .zero]⟩
        ⟨2, 2, .replicate 2 2 .zero⟩ ≠
          .ok (⟨2, 2, .replicate 2 2 .zero⟩ : DenseMatrix (BoundedInt .w32)) := by decide +kernel
    have hfits := fun hfits => hne ((multiply_eq_ok_iff h).1.mpr hfits)
    exact ⟨_, _, _, h, hfits, (multiply_eq_ok_iff h).2 hfits⟩

end MatrixReckoner.DenseMatrix
