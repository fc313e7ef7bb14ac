import Mathlib.Data.Matrix.Basic
import Mathlib.Tactic
import MatrixReckoner.Element.BoundedInt
import MatrixReckoner.Element.Basic
import MatrixReckoner.Grid.Algebra

/-!
Numbers whose checked arithmetic is exact, and grids of them as matrices over a ring.

* `Exact`: an operation succeeds exactly if its value in the ring is that of a number.
* `InRange`, `BoundedInt.inRange_iff`: the values that numbers have.
* `Grid.values`, `Grid.exists_values_eq_iff`: the matrix of the values of a grid, and the matrices
  that grids have.
* `Grid.add_eq_ok_iff`, `Grid.sub_eq_ok_iff`, `Grid.scale_eq_ok_iff`: operations entry by entry.
-/

namespace MatrixReckoner

/-- Numbers with values in a ring whose arithmetic is that of their values: it succeeds exactly if
the value of the result is that of a number. -/
class Exact (α : Type) (R : outParam Type) [Element α] [CommRing R] where
  value : α → R
  value_injective : Function.Injective value
  value_zero : value Element.zero = 0
  value_one : value Element.one = 1
  add_eq_ok_iff {x y z : α} : Element.add x y = .ok z ↔ value z = value x + value y
  sub_eq_ok_iff {x y z : α} : Element.sub x y = .ok z ↔ value z = value x - value y
  mul_eq_ok_iff {x y z : α} : Element.mul x y = .ok z ↔ value z = value x * value y
  neg_eq_ok_iff {x z : α} : Element.neg x = .ok z ↔ value z = -value x

open Exact (value)

instance BoundedInt.instExact (w : IntWidth) : Exact (BoundedInt w) ℤ where
  value := BoundedInt.val
  value_injective _ _ := BoundedInt.val_injective
  value_zero := rfl
  value_one := rfl
  add_eq_ok_iff := BoundedInt.checked_eq_ok_iff
  sub_eq_ok_iff := BoundedInt.checked_eq_ok_iff
  mul_eq_ok_iff := BoundedInt.checked_eq_ok_iff
  neg_eq_ok_iff := BoundedInt.checked_eq_ok_iff

instance ExactInt.instExact : Exact ℤ ℤ where
  value := id
  value_injective _ _ := id
  value_zero := rfl
  value_one := rfl
  add_eq_ok_iff := by simp [Element.add, eq_comm]
  sub_eq_ok_iff := by simp [Element.sub, eq_comm]
  mul_eq_ok_iff := by simp [Element.mul, eq_comm]
  neg_eq_ok_iff := by simp [Element.neg, eq_comm]

instance ExactRat.instExact : Exact ℚ ℚ where
  value := id
  value_injective _ _ := id
  value_zero := rfl
  value_one := rfl
  add_eq_ok_iff := by simp [Element.add, eq_comm]
  sub_eq_ok_iff := by simp [Element.sub, eq_comm]
  mul_eq_ok_iff := by simp [Element.mul, eq_comm]
  neg_eq_ok_iff := by simp [Element.neg, eq_comm]

variable {α R : Type} [Element α] [CommRing R] [Exact α R]

/-! ### Ranges -/

/-- The value of some number. -/
def InRange (α : Type) {R : Type} [Element α] [CommRing R] [Exact α R] (r : R) : Prop :=
  ∃ x : α, value x = r

/-- The values of bounded integers are the integers within the limit. -/
lemma BoundedInt.inRange_iff {w : IntWidth} {r : ℤ} :
    InRange (BoundedInt w) r ↔ -w.limit ≤ r ∧ r < w.limit := by
  refine ⟨?_, ?_⟩
  · rintro ⟨x, rfl⟩
    exact ⟨x.le_val, x.val_lt⟩
  · rintro ⟨hle, hlt⟩
    exact ⟨⟨r, hle, hlt⟩, rfl⟩

/-- Every integer is the value of itself. -/
lemma ExactInt.inRange (r : ℤ) : InRange ℤ r := ⟨r, rfl⟩

/-- Every rational number is the value of itself. -/
lemma ExactRat.inRange (r : ℚ) : InRange ℚ r := ⟨r, rfl⟩

/-- Every entry of a matrix is in a class. -/
def Within {m n : ℕ} (P : R → Prop) (x : Matrix (Fin m) (Fin n) R) : Prop :=
  ∀ i j, P (x i j)

namespace Grid

variable {m n : ℕ} {a b c : Grid α m n}

omit [Element α] in
/-- A grid is computed if all its entries are. -/
lemma exists_tabulate_eq_ok {ε : Type} {f : Fin m → Fin n → Except ε α}
    {P : Fin m → Fin n → α → Prop} (h : ∀ i j, ∃ x, f i j = .ok x ∧ P i j x) :
    ∃ g, tabulate f = .ok g ∧ ∀ i j, P i j (g.entry i j) := by
  choose x hx hP using h
  refine ⟨ofFn x, tabulate_eq_ok_iff.mpr fun i j => ?_, fun i j => ?_⟩
  · rw [hx, entry_ofFn]
  · rw [entry_ofFn]
    exact hP i j

/-! ### Values -/

/-- The matrix of the values of a grid. -/
def values (a : Grid α m n) : Matrix (Fin m) (Fin n) R :=
  fun i j => value (a.entry i j)

@[simp] lemma values_apply (a : Grid α m n) (i : Fin m) (j : Fin n) :
    a.values i j = value (a.entry i j) := rfl

lemma values_injective : Function.Injective (values : Grid α m n → _) := by
  intro a b h
  ext i j
  exact Exact.value_injective (congrFun (congrFun h i) j)

/-- A matrix is that of a grid if all its entries are in range. -/
lemma exists_values_eq_iff {x : Matrix (Fin m) (Fin n) R} :
    (∃ a : Grid α m n, a.values = x) ↔ Within (InRange α) x := by
  refine ⟨?_, ?_⟩
  · rintro ⟨a, rfl⟩ i j
    exact ⟨a.entry i j, rfl⟩
  · intro h
    choose f hf using h
    refine ⟨ofFn f, ?_⟩
    ext i j
    rw [values_apply, entry_ofFn, hf]

/-- The values of the identity are those of the identity matrix. -/
lemma values_identity : (identity n : Grid α n n).values = (1 : Matrix (Fin n) (Fin n) R) := by
  ext i j
  rw [values_apply, identity, entry_ofFn, Matrix.one_apply]
  split
  · exact Exact.value_one
  · exact Exact.value_zero

/-! ### Operations entry by entry -/

lemma add_eq_ok_iff : a.add b = .ok c ↔ c.values = a.values + b.values := by
  rw [add, zipM_eq_ok_iff, ← Matrix.ext_iff]
  simp only [Exact.add_eq_ok_iff, values_apply, Matrix.add_apply]

lemma sub_eq_ok_iff : a.sub b = .ok c ↔ c.values = a.values - b.values := by
  rw [sub, zipM_eq_ok_iff, ← Matrix.ext_iff]
  simp only [Exact.sub_eq_ok_iff, values_apply, Matrix.sub_apply]

lemma scale_eq_ok_iff {s : α} : a.scale s = .ok c ↔ c.values = value s • a.values := by
  rw [scale, mapM_eq_ok_iff, ← Matrix.ext_iff]
  simp only [Exact.mul_eq_ok_iff, values_apply, Matrix.smul_apply, smul_eq_mul, mul_comm]

end Grid

end MatrixReckoner
