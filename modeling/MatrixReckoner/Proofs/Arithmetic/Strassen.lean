import Mathlib.Tactic.NoncommRing
import MatrixReckoner.Proofs.Arithmetic.Product

/-!
Strassen's product is the product of matrices, where none of its intermediate results leaves the
range.

* `Grid.mul_submatrix`: products of quarters.
* `Grid.StrassenFits`: every sum, difference and product that the scheme makes of two matrices is in
  range.
* `Grid.Yields`: a computation of a grid with its exact condition and its values, and its rules.
* `Grid.strassen_yields`: Strassen's product succeeds exactly if it fits, with the values of the
  matrix product.
-/

namespace MatrixReckoner.Grid

open Exact (value)

variable {α R : Type} [Element α] [CommRing R] [Exact α R] {m n h : ℕ}

/-! ### Quarters -/

/-- A part of a product, by the halves of the inner dimension. -/
lemma mul_submatrix {l o : ℕ} (x : Matrix (Fin m) (Fin (h + h)) R)
    (y : Matrix (Fin (h + h)) (Fin n) R) (r : Fin l → Fin m) (s : Fin o → Fin n) :
    (x * y).submatrix r s =
      x.submatrix r (Fin.castAdd h) * y.submatrix (Fin.castAdd h) s +
        x.submatrix r (Fin.natAdd h) * y.submatrix (Fin.natAdd h) s := by
  ext i j
  simp only [Matrix.submatrix_apply, Matrix.add_apply, Matrix.mul_apply, Fin.sum_univ_add]

lemma values_quadrants {g : Grid α (h + h) (h + h)} {x : Matrix (Fin (h + h)) (Fin (h + h)) R}
    (hx : g.values = x) :
    g.quadrants.topLeft.values = x.submatrix (Fin.castAdd h) (Fin.castAdd h) ∧
    g.quadrants.topRight.values = x.submatrix (Fin.castAdd h) (Fin.natAdd h) ∧
    g.quadrants.bottomLeft.values = x.submatrix (Fin.natAdd h) (Fin.castAdd h) ∧
    g.quadrants.bottomRight.values = x.submatrix (Fin.natAdd h) (Fin.natAdd h) := by
  subst hx
  refine ⟨?_, ?_, ?_, ?_⟩ <;> ext i j <;> simp [quadrants]

/-- Four quarters make up the matrix that has them. -/
lemma values_join {q : Quadrants α h} {x : Matrix (Fin (h + h)) (Fin (h + h)) R}
    (ha : q.topLeft.values = x.submatrix (Fin.castAdd h) (Fin.castAdd h))
    (hb : q.topRight.values = x.submatrix (Fin.castAdd h) (Fin.natAdd h))
    (hc : q.bottomLeft.values = x.submatrix (Fin.natAdd h) (Fin.castAdd h))
    (hd : q.bottomRight.values = x.submatrix (Fin.natAdd h) (Fin.natAdd h)) :
    q.join.values = x := by
  obtain ⟨ha', hb', hc', hd'⟩ := values_quadrants (rfl : q.join.values = _)
  rw [quadrants_join] at ha' hb' hc' hd'
  ext i j
  refine Fin.addCases (fun i => ?_) (fun i => ?_) i <;>
    refine Fin.addCases (fun j => ?_) (fun j => ?_) j
  · exact congrFun (congrFun (ha'.symm.trans ha) i) j
  · exact congrFun (congrFun (hb'.symm.trans hb) i) j
  · exact congrFun (congrFun (hc'.symm.trans hc) i) j
  · exact congrFun (congrFun (hd'.symm.trans hd) i) j

section Identities

variable {S : Type} [Ring S] (a b c d e f g h : S)

/-! ### The quarters of a product, from the seven products -/

lemma topLeft_identity :
    (a + d) * (e + h) + d * (g - e) - (a + b) * h + (b - d) * (g + h) = a * e + b * g := by
  noncomm_ring

lemma topRight_identity : a * (f - h) + (a + b) * h = a * f + b * h := by
  noncomm_ring

lemma bottomLeft_identity : (c + d) * e + d * (g - e) = c * e + d * g := by
  noncomm_ring

lemma bottomRight_identity :
    a * (f - h) + (a + d) * (e + h) - (c + d) * e - (a - c) * (e + f) = c * f + d * h := by
  noncomm_ring

end Identities

/-! ### Intermediate results -/

/-- Every sum, difference and product that Strassen's scheme makes is in the class `P`: the operands
of the seven products, these products themselves, and the sums that make up the quarters. -/
def StrassenFits (P : R → Prop) : (e : ℕ) → Matrix (Fin (side e)) (Fin (side e)) R →
    Matrix (Fin (side e)) (Fin (side e)) R → Prop
  | 0, x, y => Within P (x * y)
  | k + 1, x, y =>
    let a := x.submatrix (Fin.castAdd (side k)) (Fin.castAdd (side k))
    let b := x.submatrix (Fin.castAdd (side k)) (Fin.natAdd (side k))
    let c := x.submatrix (Fin.natAdd (side k)) (Fin.castAdd (side k))
    let d := x.submatrix (Fin.natAdd (side k)) (Fin.natAdd (side k))
    let e := y.submatrix (Fin.castAdd (side k)) (Fin.castAdd (side k))
    let f := y.submatrix (Fin.castAdd (side k)) (Fin.natAdd (side k))
    let g := y.submatrix (Fin.natAdd (side k)) (Fin.castAdd (side k))
    let h := y.submatrix (Fin.natAdd (side k)) (Fin.natAdd (side k))
    Within P (f - h) ∧ StrassenFits P k a (f - h) ∧
    Within P (a + b) ∧ StrassenFits P k (a + b) h ∧
    Within P (c + d) ∧ StrassenFits P k (c + d) e ∧
    Within P (g - e) ∧ StrassenFits P k d (g - e) ∧
    Within P (a + d) ∧ Within P (e + h) ∧ StrassenFits P k (a + d) (e + h) ∧
    Within P (b - d) ∧ Within P (g + h) ∧ StrassenFits P k (b - d) (g + h) ∧
    Within P (a - c) ∧ Within P (e + f) ∧ StrassenFits P k (a - c) (e + f) ∧
    Within P ((a + d) * (e + h) + d * (g - e)) ∧
    Within P ((a + d) * (e + h) + d * (g - e) - (a + b) * h) ∧
    Within P ((a + d) * (e + h) + d * (g - e) - (a + b) * h + (b - d) * (g + h)) ∧
    Within P (a * (f - h) + (a + b) * h) ∧
    Within P ((c + d) * e + d * (g - e)) ∧
    Within P (a * (f - h) + (a + d) * (e + h)) ∧
    Within P (a * (f - h) + (a + d) * (e + h) - (c + d) * e) ∧
    Within P (a * (f - h) + (a + d) * (e + h) - (c + d) * e - (a - c) * (e + f))

/-! ### Computations -/

/-- The computation succeeds exactly under the condition `P`, with a grid of the values `v`. -/
structure Yields (x : Except Overflow (Grid α m n)) (P : Prop) (v : Matrix (Fin m) (Fin n) R) :
    Prop where
  exists_values : P → ∃ g : Grid α m n, g.values = v
  eq_ok_iff : ∀ g, x = .ok g ↔ P ∧ g.values = v

section Yields

variable {m' n' : ℕ} {P Q : Prop} {a b : Grid α m n} {x y : Matrix (Fin m) (Fin n) R}
  {v : Matrix (Fin m) (Fin n) R} {w : Matrix (Fin m') (Fin n') R}
  {t : Except Overflow (Grid α m n)}

lemma yields_add (ha : a.values = x) (hb : b.values = y) :
    Yields (a.add b) (Within (InRange α) (x + y)) (x + y) := by
  subst ha hb
  refine ⟨exists_values_eq_iff.mpr, fun g => ?_⟩
  rw [add_eq_ok_iff]
  exact ⟨fun hg => ⟨exists_values_eq_iff.mp ⟨g, hg⟩, hg⟩, And.right⟩

lemma yields_sub (ha : a.values = x) (hb : b.values = y) :
    Yields (a.sub b) (Within (InRange α) (x - y)) (x - y) := by
  subst ha hb
  refine ⟨exists_values_eq_iff.mpr, fun g => ?_⟩
  rw [sub_eq_ok_iff]
  exact ⟨fun hg => ⟨exists_values_eq_iff.mp ⟨g, hg⟩, hg⟩, And.right⟩

lemma yields_scale {s : α} (ha : a.values = x) :
    Yields (a.scale s) (Within (InRange α) (value s • x)) (value s • x) := by
  subst ha
  refine ⟨exists_values_eq_iff.mpr, fun g => ?_⟩
  rw [scale_eq_ok_iff]
  exact ⟨fun hg => ⟨exists_values_eq_iff.mp ⟨g, hg⟩, hg⟩, And.right⟩

lemma Yields.exists_eq_ok_iff (ht : Yields t P v) : (∃ g, t = .ok g) ↔ P := by
  constructor
  · rintro ⟨g, hg⟩
    exact ((ht.eq_ok_iff g).mp hg).1
  · intro hP
    obtain ⟨g, hg⟩ := ht.exists_values hP
    exact ⟨g, (ht.eq_ok_iff g).mpr ⟨hP, hg⟩⟩

/-- A computation that goes on with the values of another. -/
lemma Yields.bind {f : Grid α m n → Except Overflow (Grid α m' n')} (ht : Yields t P v)
    (hf : ∀ s : Grid α m n, s.values = v → Yields (f s) Q w) : Yields (t >>= f) (P ∧ Q) w := by
  refine ⟨?_, ?_⟩
  · rintro ⟨hP, hQ⟩
    obtain ⟨s, hs⟩ := ht.exists_values hP
    exact (hf s hs).exists_values hQ
  · intro g
    rw [bind_eq_ok_iff]
    refine ⟨?_, ?_⟩
    · rintro ⟨s, hs, hg⟩
      obtain ⟨hP, hs⟩ := (ht.eq_ok_iff s).mp hs
      obtain ⟨hQ, hg⟩ := ((hf s hs).eq_ok_iff g).mp hg
      exact ⟨⟨hP, hQ⟩, hg⟩
    · rintro ⟨⟨hP, hQ⟩, hg⟩
      obtain ⟨s, hs⟩ := ht.exists_values hP
      exact ⟨s, (ht.eq_ok_iff s).mpr ⟨hP, hs⟩, ((hf s hs).eq_ok_iff g).mpr ⟨hQ, hg⟩⟩

/-- A computation whose last step cannot fail. -/
lemma Yields.bind_pure {f : Grid α m n → Grid α m' n'} (ht : Yields t P v)
    (hf : ∀ s : Grid α m n, s.values = v → (f s).values = w) :
    Yields (t >>= fun s => pure (f s)) P w := by
  refine ⟨?_, ?_⟩
  · intro hP
    obtain ⟨s, hs⟩ := ht.exists_values hP
    exact ⟨f s, hf s hs⟩
  · intro g
    rw [bind_eq_ok_iff]
    refine ⟨?_, ?_⟩
    · rintro ⟨s, hs, hg⟩
      obtain ⟨hP, hs⟩ := (ht.eq_ok_iff s).mp hs
      cases hg
      exact ⟨hP, hf s hs⟩
    · rintro ⟨hP, hg⟩
      obtain ⟨s, hs⟩ := ht.exists_values hP
      refine ⟨s, (ht.eq_ok_iff s).mpr ⟨hP, hs⟩, congrArg Except.ok ?_⟩
      exact values_injective ((hf s hs).trans hg.symm)

end Yields

/-! ### Strassen's product -/

/-- A matrix of order one acts by its entry. -/
lemma mul_eq_smul_of_order_one (u v : Matrix (Fin 1) (Fin 1) R) : u * v = v 0 0 • u := by
  ext i j
  rw [Matrix.mul_apply, Fin.sum_univ_one, Matrix.smul_apply, smul_eq_mul, Subsingleton.elim i 0,
    Subsingleton.elim j 0, mul_comm]

/-- **Strassen's product**: it succeeds exactly if every intermediate result is in range, with the
values of the product of the matrices. -/
theorem strassen_yields (e : ℕ) {x y : Grid α (side e) (side e)}
    {u v : Matrix (Fin (side e)) (Fin (side e)) R} (hx : x.values = u) (hy : y.values = v) :
    Yields (strassen e x y) (StrassenFits (InRange α) e u v) (u * v) := by
  induction e with
  | zero =>
      have hmul : u * v = v ⟨0, Nat.one_pos⟩ ⟨0, Nat.one_pos⟩ • u := mul_eq_smul_of_order_one u v
      rw [strassen, StrassenFits, hmul, ← hy]
      exact yields_scale hx
  | succ k ih =>
      rw [strassen]
      obtain ⟨ha, hb, hc, hd⟩ := values_quadrants (h := side k) hx
      obtain ⟨he, hf, hg, hh⟩ := values_quadrants (h := side k) hy
      generalize quadrants (h := side k) x = qx at *
      generalize quadrants (h := side k) y = qy at *
      obtain ⟨a, b, c, d⟩ := qx
      obtain ⟨e, f, g, h⟩ := qy
      refine (yields_sub hf hh).bind fun fh hfh => (ih ha hfh).bind fun p₁ hp₁ =>
        (yields_add ha hb).bind fun ab hab => (ih hab hh).bind fun p₂ hp₂ =>
        (yields_add hc hd).bind fun cd hcd => (ih hcd he).bind fun p₃ hp₃ =>
        (yields_sub hg he).bind fun ge hge => (ih hd hge).bind fun p₄ hp₄ =>
        (yields_add ha hd).bind fun ad had => (yields_add he hh).bind fun eh heh =>
        (ih had heh).bind fun p₅ hp₅ =>
        (yields_sub hb hd).bind fun bd hbd => (yields_add hg hh).bind fun gh hgh =>
        (ih hbd hgh).bind fun p₆ hp₆ =>
        (yields_sub ha hc).bind fun ac hac => (yields_add he hf).bind fun ef hef =>
        (ih hac hef).bind fun p₇ hp₇ =>
        (yields_add hp₅ hp₄).bind fun s₁ hs₁ => (yields_sub hs₁ hp₂).bind fun s₂ hs₂ =>
        (yields_add hs₂ hp₆).bind fun topLeft htopLeft =>
        (yields_add hp₁ hp₂).bind fun topRight htopRight =>
        (yields_add hp₃ hp₄).bind fun bottomLeft hbottomLeft =>
        (yields_add hp₁ hp₅).bind fun s₃ hs₃ => (yields_sub hs₃ hp₃).bind fun s₄ hs₄ =>
        (yields_sub hs₄ hp₇).bind_pure fun bottomRight hbottomRight => values_join ?_ ?_ ?_ ?_
      · rw [htopLeft, topLeft_identity]
        exact (mul_submatrix (h := side k) u v _ _).symm
      · rw [htopRight, topRight_identity]
        exact (mul_submatrix (h := side k) u v _ _).symm
      · rw [hbottomLeft, bottomLeft_identity]
        exact (mul_submatrix (h := side k) u v _ _).symm
      · rw [hbottomRight, bottomRight_identity]
        exact (mul_submatrix (h := side k) u v _ _).symm

end MatrixReckoner.Grid
