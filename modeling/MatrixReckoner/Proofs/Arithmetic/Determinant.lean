import Mathlib.LinearAlgebra.Matrix.Adjugate
import MatrixReckoner.Proofs.Arithmetic.Unfailing

/-!
The determinant by expansion along the first row is the sum over all permutations.

* `Grid.values_minor`: minors of a grid are submatrices.
* `Grid.value_of_signed_term`, `Grid.value_of_foldlM_add`: a product with its sign, and terms added
  one after another.
* `Grid.value_of_det`: a determinant that is computed is that of the matrix of the values.
* `DenseMatrix.exists_determinant_eq_ok`, `DenseMatrix.determinant_eq_sum_perm`: determinants of
  matrices, and the sum over all permutations.
-/

namespace MatrixReckoner

open Exact (value)

variable {α R : Type} [Element α] [CommRing R] [Exact α R]

namespace Grid

variable {n : ℕ}

/-! ### Minors -/

/-- Positions move up behind the one that is left out. -/
lemma skip_eq_succAbove (p : Fin (n + 1)) (i : Fin n) : skip p i = p.succAbove i := by
  rw [skip, Fin.succAbove]
  rfl

lemma values_minor (g : Grid α (n + 1) (n + 1)) (p q : Fin (n + 1)) :
    (g.minor p q).values = g.values.submatrix p.succAbove q.succAbove := by
  ext i j
  simp [skip_eq_succAbove]

/-! ### Signed terms -/

omit [Element α] [Exact α R] in
/-- The sign of a position is that of its parity. -/
lemma neg_one_pow_mul_eq_ite (k : ℕ) (r : R) : (-1) ^ k * r = if k % 2 = 0 then r else -r := by
  split
  · next h => rw [(Nat.even_iff.mpr h).neg_one_pow, one_mul]
  · next h => rw [(Nat.odd_iff.mpr (by omega)).neg_one_pow, neg_one_mul]

/-- A product is added with the sign of its position. -/
lemma value_of_signed_term {k : ℕ} {x y a m : α}
    (h : (do
      let term ← Element.mul a m
      Element.add x (← if k % 2 = 0 then .ok term else Element.neg term)) = .ok y) :
    value y = value x + (-1) ^ k * (value a * value m) := by
  obtain ⟨term, hterm, h⟩ := bind_eq_ok_iff.mp h
  rw [neg_one_pow_mul_eq_ite, ← Exact.mul_eq_ok_iff.mp hterm]
  split at h
  · next hk =>
    have hadd : Element.add x term = .ok y := h
    rw [if_pos hk, Exact.add_eq_ok_iff.mp hadd]
  · next hk =>
    obtain ⟨opposite, hopposite, h⟩ := bind_eq_ok_iff.mp h
    have hadd : Element.add x opposite = .ok y := h
    rw [if_neg hk, Exact.add_eq_ok_iff.mp hadd, Exact.neg_eq_ok_iff.mp hopposite]

/-- Terms that are added one after another. -/
lemma value_of_foldlM_add {β : Type} {f : α → β → Except Overflow α} {t : β → R}
    (hf : ∀ {x y : α} {b : β}, f x b = .ok y → value y = value x + t b) {l : List β} {x y : α}
    (h : l.foldlM f x = .ok y) : value y = value x + (l.map t).sum := by
  induction l generalizing x with
  | nil =>
      cases h
      simp
  | cons b l ih =>
      rw [List.foldlM_cons] at h
      obtain ⟨x₁, h₁, h⟩ := bind_eq_ok_iff.mp h
      rw [ih h, hf h₁, List.map_cons, List.sum_cons, add_assoc]

/-! ### Determinants -/

/-- The term of a column is that of the expansion in the ring, if the minor is a determinant. -/
lemma value_of_addExpansionTerm {g : Grid α (n + 1) (n + 1)} {x y : α} {j : Fin (n + 1)}
    (hminor : ∀ {m : α}, (g.minor 0 j).det = .ok m → value m = (g.minor 0 j).values.det)
    (h : g.addExpansionTerm x j = .ok y) :
    value y = value x +
      (-1) ^ j.val * g.values 0 j * (g.values.submatrix Fin.succ j.succAbove).det := by
  obtain ⟨m, hm, h⟩ := bind_eq_ok_iff.mp h
  have hvalue : value m = (g.values.submatrix Fin.succ j.succAbove).det := by
    rw [hminor hm, values_minor]
    rfl
  rw [value_of_signed_term h, hvalue, mul_assoc, values_apply]

/-- **A determinant that is computed is that of the matrix of the values.** -/
theorem value_of_det {g : Grid α n n} {d : α} (h : g.det = .ok d) : value d = g.values.det := by
  induction g using det.induct generalizing d with
  | case1 g =>
      cases h
      rw [Matrix.det_isEmpty, Exact.value_one]
  | case2 g =>
      cases h
      rw [Matrix.det_fin_one, values_apply]
  | case3 g =>
      obtain ⟨x, hx, h⟩ := bind_eq_ok_iff.mp h
      obtain ⟨y, hy, h⟩ := bind_eq_ok_iff.mp h
      rw [Matrix.det_fin_two, Exact.sub_eq_ok_iff.mp h, Exact.mul_eq_ok_iff.mp hx,
        Exact.mul_eq_ok_iff.mp hy]
      rfl
  | case4 n g ih =>
      rw [det_eq_foldlM] at h
      have hsum := value_of_foldlM_add (fun h => value_of_addExpansionTerm (ih _) h) h
      rw [hsum, Exact.value_zero, zero_add, Matrix.det_succ_row_zero, Fin.sum_univ_def]

end Grid

namespace DenseMatrix

include R in
/-- Over numbers that have every value of the ring and no storage size every determinant is
computed. -/
lemma exists_determinant_eq_ok (hall : ∀ r : R, InRange α r) (hbytes : Element.bytes α = 0) {n : ℕ}
    (x : Grid α n n) : ∃ d, determinant ⟨n, n, x⟩ = .ok d :=
  (Unfailing.of_inRange hall).exists_determinant_eq_ok x fun hn =>
    .of_bytes_eq_zero hbytes (by omega)

/-- The sum over all permutations, by the columns in which a permutation meets the rows. -/
lemma det_values_eq_sum_perm {n : ℕ} (x : Grid α n n) :
    x.values.det = ∑ p : Equiv.Perm (Fin n),
      ((Equiv.Perm.sign p : ℤ) : R) * ∏ i, value (x.entry i (p i)) := by
  rw [← Matrix.det_transpose, Matrix.det_apply']
  rfl

/-- **The determinant is the sum over all permutations**: for bounded integers where no operation
overflows, and for unbounded integers always, at every order. -/
theorem determinant_eq_sum_perm :
    (∀ (w : IntWidth) (n : ℕ) (x : Grid (BoundedInt w) n n) (d : BoundedInt w),
      determinant ⟨n, n, x⟩ = .ok d →
        d.val = ∑ p : Equiv.Perm (Fin n),
          (Equiv.Perm.sign p : ℤ) * ∏ i, (x.entry i (p i)).val) ∧
    ∀ (n : ℕ) (x : Grid ℤ n n),
      determinant ⟨n, n, x⟩ =
        .ok (∑ p : Equiv.Perm (Fin n), (Equiv.Perm.sign p : ℤ) * ∏ i, x.entry i (p i)) := by
  refine ⟨fun w n x d h => ?_, fun n x => ?_⟩
  · exact (Grid.value_of_det (det_eq_ok_of_determinant h)).trans (det_values_eq_sum_perm x)
  · obtain ⟨d, hd⟩ := exists_determinant_eq_ok ExactInt.inRange rfl x
    rw [hd]
    exact congrArg Except.ok
      ((Grid.value_of_det (det_eq_ok_of_determinant hd)).trans (det_values_eq_sum_perm x))

/-- A matrix of order three with the determinant 49. -/
theorem determinant_eq_sum_perm_of_order_three :
    ∃ (x : Grid (BoundedInt .w32) 3 3) (d : BoundedInt .w32),
      determinant ⟨3, 3, x⟩ = .ok d ∧ d.val = 49 ∧
        d.val = ∑ p : Equiv.Perm (Fin 3), (Equiv.Perm.sign p : ℤ) * ∏ i, (x.entry i (p i)).val := by
  have h : determinant ⟨3, 3, .ofVector #v[⟨2, by decide, by decide⟩, ⟨-3, by decide, by decide⟩,
      .one, ⟨2, by decide, by decide⟩, .zero, ⟨-1, by decide, by decide⟩, .one,
      ⟨4, by decide, by decide⟩, ⟨5, by decide, by decide⟩]⟩ =
        .ok (⟨49, by decide, by decide⟩ : BoundedInt .w32) := by decide +kernel
  exact ⟨_, _, h, rfl, determinant_eq_sum_perm.1 .w32 3 _ _ h⟩

end DenseMatrix

end MatrixReckoner
