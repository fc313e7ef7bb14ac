import Mathlib.Algebra.Order.Ring.Nat
import Mathlib.Data.Nat.Log
import MatrixReckoner.DenseMatrix.Algebra

/-!
Strassen's product of matrices is that of their grids: no check of a shape fails on the way.

* `DenseMatrix.side_eq_two_pow`, `DenseMatrix.isSide_iff`: orders that are powers of two.
* `DenseMatrix.zipM_mk`, `DenseMatrix.quadrants_mk`, `Blocks.join_mk`: the checked operations on
  matrices of fitting shapes are the operations on grids.
* `DenseMatrix.strassenSteps_mk`, `DenseMatrix.strassen_mk`: so is Strassen's product.
* `DenseMatrix.exists_of_strassen_eq_ok`: only operands of one order that is a power of two have
  such a product.
-/

namespace MatrixReckoner

open MatrixError (ofArithmetic ofArithmetic_eq_ok_iff)
open Grid (side IsSide)

variable {α β γ : Type}

/-- A computation with its errors rewritten goes on with its errors rewritten. -/
lemma mapError_bind {ε ε' : Type} (e : ε → ε') (x : Except ε β) (f : β → Except ε γ) :
    (x >>= f).mapError e = x.mapError e >>= fun b => (f b).mapError e := by
  cases x <;> rfl

lemma ofArithmetic_bind (x : Except Overflow β) (f : β → Except Overflow γ) :
    ofArithmetic (x >>= f) = ofArithmetic x >>= fun b => ofArithmetic (f b) :=
  mapError_bind MatrixError.overflow x f

/-- Four grids of one order as matrices. -/
def Quadrants.blocks {h : ℕ} (q : Quadrants α h) : Blocks α :=
  ⟨⟨h, h, q.topLeft⟩, ⟨h, h, q.topRight⟩, ⟨h, h, q.bottomLeft⟩, ⟨h, h, q.bottomRight⟩⟩

namespace DenseMatrix

/-! ### Orders that are powers of two -/

lemma side_eq_two_pow (e : ℕ) : side e = 2 ^ e := by
  induction e with
  | zero => rfl
  | succ e ih => rw [side, ih, pow_succ, mul_two]

lemma log2_side (e : ℕ) : (side e).log2 = e := by
  rw [side_eq_two_pow, Nat.log2_two_pow]

lemma isSide_side (e : ℕ) : IsSide (side e) := by
  rw [IsSide, log2_side]

lemma isSide_iff {n : ℕ} : IsSide n ↔ ∃ e, n = 2 ^ e := by
  constructor
  · intro h
    exact ⟨n.log2, h.symm.trans (side_eq_two_pow _)⟩
  · rintro ⟨e, rfl⟩
    rw [← side_eq_two_pow]
    exact isSide_side e

lemma one_lt_side_iff {e : ℕ} : 2 ≤ side e ↔ 0 < e := by
  rw [side_eq_two_pow]
  exact ⟨fun h => Nat.pos_of_ne_zero (by rintro rfl; simp at h), fun h => Nat.le_self_pow h.ne' 2⟩

lemma side_injective : Function.Injective side := by
  intro e e' h
  rw [side_eq_two_pow, side_eq_two_pow] at h
  exact Nat.pow_right_injective le_rfl h

/-- Square matrices of one order that is a power of two are grids of such an order. -/
lemma exists_side {a b : DenseMatrix α} (ha : a.rows = a.cols) (hb : b.shape = a.shape)
    (hside : IsSide a.rows) :
    ∃ (e : ℕ) (x y : Grid α (side e) (side e)),
      a = ⟨side e, side e, x⟩ ∧ b = ⟨side e, side e, y⟩ := by
  obtain ⟨e, he⟩ : ∃ e, side e = a.rows := ⟨_, hside⟩
  obtain ⟨m, n, x⟩ := a
  obtain ⟨m', n', y⟩ := b
  dsimp only at *
  subst he
  obtain rfl : n = side e := ha.symm
  obtain ⟨rfl, rfl⟩ := Shape.mk.inj hb
  exact ⟨e, x, y, rfl, rfl⟩

/-! ### Operations on matrices of fitting shapes -/

variable {m n h : ℕ}

lemma zipM_mk (f : α → α → Except Overflow α) (x y : Grid α m n) :
    zipM f ⟨m, n, x⟩ ⟨m, n, y⟩ = (⟨m, n, ·⟩) <$> ofArithmetic (x.zipM f y) := by
  rw [zipM, dif_pos ⟨rfl, rfl⟩, Grid.cast_rfl]
  rfl

/-- The quarters of a matrix of even order. -/
lemma quadrants_mk (x : Grid α (h + h) (h + h)) :
    quadrants ⟨h + h, h + h, x⟩ = .ok x.quadrants.blocks := by
  have hhalf : ∀ (k : ℕ) (hk : h + h = k + k),
      (x.cast hk hk).quadrants.blocks = x.quadrants.blocks := by
    intro k hk
    obtain rfl : k = h := by omega
    rw [Grid.cast_rfl]
  have heven : h + h = (h + h) / 2 + (h + h) / 2 := by omega
  rw [quadrants, squareCells, dif_pos rfl]
  dsimp only [bind, Except.bind]
  rw [dif_pos heven, Grid.cast_rfl]
  exact congrArg Except.ok (hhalf _ heven)

/-- Four quarters of one order are joined. -/
lemma join_blocks (q : Quadrants α h) : q.blocks.join = .ok ⟨h + h, h + h, q.join⟩ := by
  have hcells : ∀ x : Grid α h h, cellsOfOrder h ⟨h, h, x⟩ = .ok x := by
    intro x
    rw [cellsOfOrder, dif_pos ⟨rfl, rfl⟩, Grid.cast_rfl]
  rw [Blocks.join, Quadrants.blocks]
  dsimp only
  rw [hcells, hcells, hcells, hcells]
  rfl

variable [Element α]

lemma add_mk (x y : Grid α m n) :
    add ⟨m, n, x⟩ ⟨m, n, y⟩ = (⟨m, n, ·⟩) <$> ofArithmetic (x.add y) :=
  zipM_mk Element.add x y

lemma sub_mk (x y : Grid α m n) :
    sub ⟨m, n, x⟩ ⟨m, n, y⟩ = (⟨m, n, ·⟩) <$> ofArithmetic (x.sub y) :=
  zipM_mk Element.sub x y

/-! ### Strassen's product -/

lemma strassenSteps_mk (e : ℕ) (x y : Grid α (side e) (side e)) :
    strassenSteps e ⟨side e, side e, x⟩ ⟨side e, side e, y⟩ =
      (⟨side e, side e, ·⟩) <$> ofArithmetic (Grid.strassen e x y) := by
  induction e with
  | zero => rfl
  | succ k ih =>
      have hx : quadrants ⟨side (k + 1), side (k + 1), x⟩ =
          pure (Grid.quadrants (h := side k) x).blocks := quadrants_mk x
      have hy : quadrants ⟨side (k + 1), side (k + 1), y⟩ =
          pure (Grid.quadrants (h := side k) y).blocks := quadrants_mk y
      rw [strassenSteps, Grid.strassen, hx, pure_bind, hy]
      generalize Grid.quadrants (h := side k) x = qx
      generalize Grid.quadrants (h := side k) y = qy
      obtain ⟨a, b, c, d⟩ := qx
      obtain ⟨e, f, g, h⟩ := qy
      have hjoin : ∀ a b c d : Grid α (side k) (side k), Blocks.join ⟨⟨side k, side k, a⟩,
          ⟨side k, side k, b⟩, ⟨side k, side k, c⟩, ⟨side k, side k, d⟩⟩ =
            pure ⟨side k + side k, side k + side k, Quadrants.join ⟨a, b, c, d⟩⟩ :=
        fun a b c d => join_blocks ⟨a, b, c, d⟩
      change _ = (fun z : Grid α (side k + side k) (side k + side k) =>
        (⟨side k + side k, side k + side k, z⟩ : DenseMatrix α)) <$> ofArithmetic _
      simp only [Quadrants.blocks, pure_bind, add_mk, sub_mk, ih, hjoin, ofArithmetic_bind,
        map_bind, bind_map_left]
      rfl

lemma strassen_eq_steps {a b : DenseMatrix α} (ha : a.rows = a.cols) (hb : b.shape = a.shape)
    (hside : IsSide a.rows) : a.strassen b = strassenSteps a.rows.log2 a b := by
  rw [strassen, if_neg (not_not.mpr ha), if_neg (not_not.mpr hb), if_pos hside]

/-- Strassen's product of grids whose order is a power of two. -/
lemma strassen_mk {e : ℕ} (x y : Grid α (side e) (side e)) :
    strassen ⟨side e, side e, x⟩ ⟨side e, side e, y⟩ =
      (⟨side e, side e, ·⟩) <$> ofArithmetic (Grid.strassen e x y) := by
  have hsteps : strassen ⟨side e, side e, x⟩ ⟨side e, side e, y⟩ =
      strassenSteps (side e).log2 ⟨side e, side e, x⟩ ⟨side e, side e, y⟩ :=
    strassen_eq_steps rfl rfl (isSide_side e)
  rw [hsteps, log2_side, strassenSteps_mk]

/-- Operands with a product of Strassen's have one order, which is a power of two. -/
lemma exists_of_strassen_eq_ok {a b c : DenseMatrix α} (h : a.strassen b = .ok c) :
    ∃ (e : ℕ) (x y z : Grid α (side e) (side e)), a = ⟨side e, side e, x⟩ ∧
      b = ⟨side e, side e, y⟩ ∧ c = ⟨side e, side e, z⟩ ∧ Grid.strassen e x y = .ok z := by
  have hshape : a.rows = a.cols ∧ b.shape = a.shape ∧ IsSide a.rows := by
    rw [strassen] at h
    split at h
    · cases h
    · next ha =>
      split at h
      · cases h
      · next hb =>
        split at h
        · next hside => exact ⟨not_not.mp ha, not_not.mp hb, hside⟩
        · cases h
  obtain ⟨ha, hb, hside⟩ := hshape
  obtain ⟨e, x, y, rfl, rfl⟩ := exists_side ha hb hside
  rw [strassen_mk, map_eq_ok_iff] at h
  obtain ⟨z, hz, rfl⟩ := h
  exact ⟨e, x, y, z, rfl, rfl, rfl, ofArithmetic_eq_ok_iff.mp hz⟩

end DenseMatrix

end MatrixReckoner
