import MatrixReckoner.Proofs.Arithmetic.Multiply

/-!
Computations of matrices and the values they end with.

* `DenseMatrix.Computes`: a computation that ends with the matrix of given values, or with an
  overflow and nothing else.
* `DenseMatrix.computes_add`, `DenseMatrix.computes_scale`: sums and multiples.
* `DenseMatrix.computes_strassen`, `DenseMatrix.computes_multiply`: products by Strassen's method,
  and by the method that their shapes choose.
* `DenseMatrix.Computes.bind`: one computation after another.
* `DenseMatrix.OverflowFree`, `DenseMatrix.Agree`: two computations that end with one matrix where
  neither overflows.
* `DenseMatrix.Computes.agree`: two computations of the same values agree.
* `DenseMatrix.exists_multiply_eq_ok`, `DenseMatrix.multiply_eq_ok_iff_values`: over numbers that
  have every value of the ring every product is computed, and which matrix it is.
-/

namespace MatrixReckoner.DenseMatrix

open MatrixError (ofArithmetic ofArithmetic_eq_ok_iff)
open Grid (side)

variable {α : Type}

/-- No operation of the computation leaves the range of the numbers. -/
def OverflowFree (p : Except MatrixError (DenseMatrix α)) : Prop :=
  ∀ o, p ≠ .error (.overflow o)

/-- Where no operation of either computation overflows, both end with one matrix. -/
def Agree (p q : Except MatrixError (DenseMatrix α)) : Prop :=
  OverflowFree p → OverflowFree q → ∃ c, p = .ok c ∧ q = .ok c

variable {R : Type} [Element α] [CommRing R] [Exact α R] {m k n m' n' : ℕ}
  {v : Matrix (Fin m) (Fin n) R} {w : Matrix (Fin m') (Fin n') R}

/-- The computation ends with the matrix of the values `v`, or with an overflow. -/
inductive Computes (v : Matrix (Fin m) (Fin n) R) : Except MatrixError (DenseMatrix α) → Prop where
  | ok (z : Grid α m n) (h : z.values = v) : Computes v (.ok ⟨m, n, z⟩)
  | overflow (o : Overflow) : Computes v (.error (.overflow o))

namespace Computes

variable {p q : Except MatrixError (DenseMatrix α)}

/-- The matrix with which a computation ends is that of its values. -/
lemma exists_of_eq_ok {c : DenseMatrix α} (hp : Computes v p) (h : p = .ok c) :
    ∃ z : Grid α m n, c = ⟨m, n, z⟩ ∧ z.values = v := by
  subst h
  cases hp with
  | ok z hz => exact ⟨z, rfl, hz⟩

/-- A computation that goes on with the matrix of another. -/
lemma bind {f : DenseMatrix α → Except MatrixError (DenseMatrix α)} (hp : Computes v p)
    (hf : ∀ z : Grid α m n, z.values = v → Computes w (f ⟨m, n, z⟩)) : Computes w (p >>= f) := by
  cases hp with
  | ok z hz => exact hf z hz
  | overflow o => exact .overflow o

/-- Two computations of the same values end with the same matrix if neither overflows. -/
lemma agree (hp : Computes v p) (hq : Computes v q) : Agree p q := by
  intro hp' hq'
  cases hp with
  | overflow o => exact absurd rfl (hp' o)
  | ok z hz =>
    cases hq with
    | overflow o => exact absurd rfl (hq' o)
    | ok z' hz' =>
      obtain rfl : z = z' := Grid.values_injective (hz.trans hz'.symm)
      exact ⟨_, rfl, rfl⟩

end Computes

/-! ### Operations -/

/-- A grid of known values, made by element arithmetic. -/
lemma computes_grid {t : Except Overflow (Grid α m n)} (h : ∀ z, t = .ok z → z.values = v) :
    Computes v ((⟨m, n, ·⟩) <$> ofArithmetic t) := by
  cases t with
  | ok z => exact .ok z (h z rfl)
  | error o => exact .overflow o

lemma computes_add {x y : Grid α m n} {u v : Matrix (Fin m) (Fin n) R} (hx : x.values = u)
    (hy : y.values = v) : Computes (u + v) (add ⟨m, n, x⟩ ⟨m, n, y⟩) := by
  subst hx hy
  rw [add, zipM, dif_pos ⟨rfl, rfl⟩, Grid.cast_rfl]
  exact computes_grid fun z hz => Grid.add_eq_ok_iff.mp hz

lemma computes_scale {x : Grid α m n} {u : Matrix (Fin m) (Fin n) R} (hx : x.values = u) (s : α) :
    Computes (Exact.value s • u) (scale ⟨m, n, x⟩ s) := by
  subst hx
  exact computes_grid fun z hz => Grid.scale_eq_ok_iff.mp hz

lemma computes_strassen {e : ℕ} {x y : Grid α (side e) (side e)}
    {u v : Matrix (Fin (side e)) (Fin (side e)) R} (hx : x.values = u) (hy : y.values = v) :
    Computes (u * v) (strassen ⟨side e, side e, x⟩ ⟨side e, side e, y⟩) := by
  rw [strassen_mk]
  exact computes_grid fun z hz => (((Grid.strassen_yields e hx hy).eq_ok_iff z).mp hz).2

/-- **A product that is computed is that of the matrices of the values**, whichever method is chosen
for it, and if it is not computed, an operation on the entries overflows. -/
theorem computes_multiply {x : Grid α m k} {y : Grid α k n} {u : Matrix (Fin m) (Fin k) R}
    {v : Matrix (Fin k) (Fin n) R} (hx : x.values = u) (hy : y.values = v) :
    Computes (u * v) (multiply ⟨m, k, x⟩ ⟨k, n, y⟩) := by
  subst hx hy
  rw [multiply]
  split
  · next huses =>
    obtain ⟨e, x', y', -, hx, hy⟩ := usesStrassen_iff.mp huses
    cases hx
    cases hy
    exact computes_strassen rfl rfl
  · rw [product_mk]
    exact computes_grid fun z hz => Grid.values_of_product hz

section Everything

variable (hall : ∀ r : R, InRange α r)

include hall

/-- Over numbers that have every value of the ring every product of fitting matrices is computed. -/
theorem exists_multiply_eq_ok (x : Grid α m k) (y : Grid α k n) :
    ∃ c, multiply ⟨m, k, x⟩ ⟨k, n, y⟩ = .ok c := by
  rw [multiply]
  split
  · next huses =>
    obtain ⟨e, x', y', -, hx, hy⟩ := usesStrassen_iff.mp huses
    cases hx
    cases hy
    exact (exists_strassen_eq_product hall x' y').imp fun _ => And.left
  · obtain ⟨z, hz⟩ := Grid.exists_product_eq_ok hall x y
    exact ⟨_, by rw [product_mk, hz]; rfl⟩

/-- Over such numbers the product is the matrix of the product of the values. -/
lemma multiply_eq_ok_iff_values {x : Grid α m k} {y : Grid α k n} {z : Grid α m n} :
    multiply ⟨m, k, x⟩ ⟨k, n, y⟩ = .ok ⟨m, n, z⟩ ↔ z.values = x.values * y.values := by
  obtain ⟨c, hc⟩ := exists_multiply_eq_ok hall x y
  obtain ⟨z', rfl, hz'⟩ := (computes_multiply rfl rfl).exists_of_eq_ok hc
  rw [hc, ← hz']
  refine ⟨?_, ?_⟩
  · rintro ⟨⟩
    rfl
  · intro h
    rw [Grid.values_injective h]

end Everything

end MatrixReckoner.DenseMatrix
