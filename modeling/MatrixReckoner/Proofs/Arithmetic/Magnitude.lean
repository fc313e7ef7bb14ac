import Mathlib.Algebra.Order.Ring.Abs
import MatrixReckoner.Proofs.Arithmetic.Quarters
import MatrixReckoner.Proofs.Arithmetic.Strassen

/-!
Magnitudes of numbers through sums and products, and of the intermediate results of Strassen's
product.

* `Magnitudes`: classes of numbers, one for each bound, such that the bounds of sums and differences
  add up and those of products are multiplied.
* `magnitudes_abs`: the integers by their absolute values.
* `Magnitudes.within_add`, `Magnitudes.within_sub`, `Magnitudes.within_mul`: matrices of such
  numbers.
* `Grid.strassenFits_of_magnitudes`: three times the square of the order, times the bounds of the
  entries of two matrices, bounds every intermediate result of Strassen's product.
-/

namespace MatrixReckoner

open Grid (side)

variable {R : Type} [CommRing R] {k m n : ℕ}

/-- Classes of numbers by a bound on their magnitudes. -/
structure Magnitudes (Q : ℕ → R → Prop) : Prop where
  mono {A B : ℕ} {a : R} : Q A a → A ≤ B → Q B a
  zero : Q 0 0
  one : Q 1 1
  add {A B : ℕ} {a b : R} : Q A a → Q B b → Q (A + B) (a + b)
  sub {A B : ℕ} {a b : R} : Q A a → Q B b → Q (A + B) (a - b)
  mul {A B : ℕ} {a b : R} : Q A a → Q B b → Q (A * B) (a * b)

/-- The integers by their absolute values. -/
lemma magnitudes_abs : Magnitudes fun (A : ℕ) (z : ℤ) => |z| ≤ A where
  mono h hA := h.trans (Nat.cast_le.mpr hA)
  zero := le_rfl
  one := le_rfl
  add ha hb := by
    rw [Nat.cast_add]
    exact (abs_add_le _ _).trans (add_le_add ha hb)
  sub ha hb := by
    rw [Nat.cast_add]
    exact (abs_sub _ _).trans (add_le_add ha hb)
  mul ha hb := by
    rw [Nat.cast_mul, abs_mul]
    exact mul_le_mul ha hb (abs_nonneg _) (Nat.cast_nonneg _)

/-! ### Matrices -/

omit [CommRing R] in
lemma Within.imp {P P' : R → Prop} {x : Matrix (Fin m) (Fin n) R} (hx : Within P x)
    (h : ∀ r, P r → P' r) : Within P' x :=
  fun i j => h _ (hx i j)

omit [CommRing R] in
lemma Within.submatrix {l o : ℕ} {P : R → Prop} {x : Matrix (Fin m) (Fin n) R} (hx : Within P x)
    (r : Fin l → Fin m) (s : Fin o → Fin n) : Within P (x.submatrix r s) :=
  fun i j => hx (r i) (s j)

namespace Magnitudes

variable {Q : ℕ → R → Prop} {A B : ℕ}

lemma neg (hQ : Magnitudes Q) {a : R} (ha : Q A a) : Q A (-a) := by
  have hsub := hQ.sub hQ.zero ha
  rwa [zero_sub, Nat.zero_add] at hsub

lemma sum (hQ : Magnitudes Q) {f : Fin n → R} (hf : ∀ i, Q A (f i)) : Q (n * A) (∑ i, f i) := by
  induction n with
  | zero =>
      rw [Nat.zero_mul, Fin.sum_univ_zero]
      exact hQ.zero
  | succ n ih =>
      rw [Nat.succ_mul, Fin.sum_univ_castSucc]
      exact hQ.add (ih fun i => hf i.castSucc) (hf (Fin.last n))

variable {x y : Matrix (Fin m) (Fin n) R}

lemma within_mono (hQ : Magnitudes Q) (hx : Within (Q A) x) (h : A ≤ B) : Within (Q B) x :=
  hx.imp fun _ hr => hQ.mono hr h

lemma within_add (hQ : Magnitudes Q) (hx : Within (Q A) x) (hy : Within (Q B) y) :
    Within (Q (A + B)) (x + y) :=
  fun i j => hQ.add (hx i j) (hy i j)

lemma within_sub (hQ : Magnitudes Q) (hx : Within (Q A) x) (hy : Within (Q B) y) :
    Within (Q (A + B)) (x - y) :=
  fun i j => hQ.sub (hx i j) (hy i j)

lemma within_mul (hQ : Magnitudes Q) {x : Matrix (Fin m) (Fin k) R} {y : Matrix (Fin k) (Fin n) R}
    (hx : Within (Q A) x) (hy : Within (Q B) y) : Within (Q (k * (A * B))) (x * y) :=
  fun i j => hQ.sum fun p => hQ.mul (hx i p) (hy p j)

end Magnitudes

/-! ### Strassen's product -/

namespace Grid

/-- Half the order with twice the bounds: the operands of the half-size products, and the sums that
make up the quarters, which are at most twelve products of single entries for each row. -/
lemma half_magnitudes {e A B L : ℕ} (hA : 0 < A) (hB : 0 < B)
    (h : 3 * side (e + 1) ^ 2 * (A * B) ≤ L) :
    3 * side e ^ 2 * ((A + A) * (B + B)) ≤ L ∧ A + A ≤ L ∧ B + B ≤ L ∧
      12 * (side e * (A * B)) ≤ L := by
  have hside : 0 < side e := by
    rw [DenseMatrix.side_eq_two_pow]
    positivity
  have hhalf : 3 * side e ^ 2 * ((A + A) * (B + B)) = 3 * side (e + 1) ^ 2 * (A * B) := by
    rw [side]
    ring
  have hsum : 12 * (side e * (A * B)) ≤ 3 * side e ^ 2 * ((A + A) * (B + B)) := by
    calc 12 * (side e * (A * B)) ≤ 12 * (side e * (side e * (A * B))) :=
          Nat.mul_le_mul_left 12 (Nat.le_mul_of_pos_left _ hside)
      _ = 3 * side e ^ 2 * ((A + A) * (B + B)) := by ring
  have hproduct : A * B ≤ side e * (A * B) := Nat.le_mul_of_pos_left _ hside
  have hleft : A ≤ A * B := Nat.le_mul_of_pos_right _ hB
  have hright : B ≤ A * B := Nat.le_mul_of_pos_left _ hA
  omega

/-- **Strassen's product of bounded entries**: no intermediate result is larger than three times the
square of the order, times the bounds of the entries. -/
theorem strassenFits_of_magnitudes {Q : ℕ → R → Prop} (hQ : Magnitudes Q) {P : R → Prop} {L : ℕ}
    (hP : ∀ r, Q L r → P r) (e : ℕ) {A B : ℕ} (hA : 0 < A) (hB : 0 < B)
    (h : 3 * side e ^ 2 * (A * B) ≤ L) {u v : Matrix (Fin (side e)) (Fin (side e)) R}
    (hu : Within (Q A) u) (hv : Within (Q B) v) : StrassenFits P e u v := by
  have fits : ∀ {m n C : ℕ} {x : Matrix (Fin m) (Fin n) R}, Within (Q C) x → C ≤ L → Within P x :=
    fun hx hC => (hQ.within_mono hx hC).imp hP
  induction e generalizing A B with
  | zero =>
      have hside : side 0 = 1 := rfl
      refine fits (hQ.within_mul hu hv) ?_
      rw [hside] at h ⊢
      omega
  | succ k ih =>
      obtain ⟨h', hA', hB', hq'⟩ := half_magnitudes hA hB h
      obtain ⟨q, hq⟩ : ∃ q, q = side k * (A * B) := ⟨_, rfl⟩
      rw [← hq] at hq'
      -- a product of entries of which one is a sum or a difference, and one of which both are
      have single : ∀ {x y : Matrix (Fin (side k)) (Fin (side k)) R},
          Within (Q A) x → Within (Q (B + B)) y →
          Within (Q (q + q)) (x * y) ∧ StrassenFits P k x y := fun hx hy =>
        ⟨by rw [hq, ← mul_add, ← mul_add]; exact hQ.within_mul hx hy,
          ih (by omega) (by omega) h' (hQ.within_mono hx (by omega)) hy⟩
      have single' : ∀ {x y : Matrix (Fin (side k)) (Fin (side k)) R},
          Within (Q (A + A)) x → Within (Q B) y →
          Within (Q (q + q)) (x * y) ∧ StrassenFits P k x y := fun hx hy =>
        ⟨by rw [hq, ← mul_add, ← add_mul]; exact hQ.within_mul hx hy,
          ih (by omega) (by omega) h' hx (hQ.within_mono hy (by omega))⟩
      have double : ∀ {x y : Matrix (Fin (side k)) (Fin (side k)) R},
          Within (Q (A + A)) x → Within (Q (B + B)) y →
          Within (Q (4 * q)) (x * y) ∧ StrassenFits P k x y := fun hx hy =>
        ⟨hQ.within_mono (hQ.within_mul hx hy) (by rw [hq]; apply le_of_eq; ring),
          ih (by omega) (by omega) h' hx hy⟩
      have ha := hu.submatrix (Fin.castAdd (side k)) (Fin.castAdd (side k))
      have hb := hu.submatrix (Fin.castAdd (side k)) (Fin.natAdd (side k))
      have hc := hu.submatrix (Fin.natAdd (side k)) (Fin.castAdd (side k))
      have hd := hu.submatrix (Fin.natAdd (side k)) (Fin.natAdd (side k))
      have he := hv.submatrix (Fin.castAdd (side k)) (Fin.castAdd (side k))
      have hf := hv.submatrix (Fin.castAdd (side k)) (Fin.natAdd (side k))
      have hg := hv.submatrix (Fin.natAdd (side k)) (Fin.castAdd (side k))
      have hh := hv.submatrix (Fin.natAdd (side k)) (Fin.natAdd (side k))
      obtain ⟨hp₁, fit₁⟩ := single ha (hQ.within_sub hf hh)
      obtain ⟨hp₂, fit₂⟩ := single' (hQ.within_add ha hb) hh
      obtain ⟨hp₃, fit₃⟩ := single' (hQ.within_add hc hd) he
      obtain ⟨hp₄, fit₄⟩ := single hd (hQ.within_sub hg he)
      obtain ⟨hp₅, fit₅⟩ := double (hQ.within_add ha hd) (hQ.within_add he hh)
      obtain ⟨hp₆, fit₆⟩ := double (hQ.within_sub hb hd) (hQ.within_add hg hh)
      obtain ⟨hp₇, fit₇⟩ := double (hQ.within_sub ha hc) (hQ.within_add he hf)
      have hs₁ := hQ.within_add hp₅ hp₄
      have hs₂ := hQ.within_sub hs₁ hp₂
      have hs₃ := hQ.within_add hp₁ hp₅
      have hs₄ := hQ.within_sub hs₃ hp₃
      rw [StrassenFits]
      exact ⟨fits (hQ.within_sub hf hh) hB', fit₁, fits (hQ.within_add ha hb) hA', fit₂,
        fits (hQ.within_add hc hd) hA', fit₃, fits (hQ.within_sub hg he) hB', fit₄,
        fits (hQ.within_add ha hd) hA', fits (hQ.within_add he hh) hB', fit₅,
        fits (hQ.within_sub hb hd) hA', fits (hQ.within_add hg hh) hB', fit₆,
        fits (hQ.within_sub ha hc) hA', fits (hQ.within_add he hf) hB', fit₇,
        fits hs₁ (by omega), fits hs₂ (by omega),
        fits (hQ.within_add hs₂ hp₆) (by omega), fits (hQ.within_add hp₁ hp₂) (by omega),
        fits (hQ.within_add hp₃ hp₄) (by omega), fits hs₃ (by omega),
        fits hs₄ (by omega), fits (hQ.within_sub hs₄ hp₇) (by omega)⟩

end Grid

end MatrixReckoner
