import MatrixReckoner.Proofs.Arithmetic.Expansion
import MatrixReckoner.Proofs.Arithmetic.Failures
import MatrixReckoner.Proofs.Arithmetic.Minors

/-!
Numbers whose arithmetic never fails, and what is always computed over them.

* `Unfailing`: every operation on numbers has a result.
* `Unfailing.of_inRange`, `Unfailing.double`, `Unfailing.single`: so it is for numbers that have
  every value of a ring, and for floating-point numbers.
* `Unfailing.exists_determinant_eq_ok`, `Unfailing.exists_adjugate_eq_ok`: determinants and
  adjugates of square matrices whose minors can be stored.
* `Unfailing.exists_power_eq_ok`: powers of square matrices.
-/

namespace MatrixReckoner

/-- Every operation on numbers has a result. -/
structure Unfailing (α : Type) [Element α] : Prop where
  add (x y : α) : ∃ z, Element.add x y = .ok z
  sub (x y : α) : ∃ z, Element.sub x y = .ok z
  mul (x y : α) : ∃ z, Element.mul x y = .ok z
  neg (x : α) : ∃ z, Element.neg x = .ok z

variable {α : Type} [Element α] {n : ℕ}

namespace Unfailing

/-! ### Numbers -/

/-- The arithmetic of numbers that have every value of a ring never fails. -/
lemma of_inRange {R : Type} [CommRing R] [Exact α R] (hall : ∀ r : R, InRange α r) :
    Unfailing α where
  add _ _ := (hall _).imp fun _ => Exact.add_eq_ok_iff.mpr
  sub _ _ := (hall _).imp fun _ => Exact.sub_eq_ok_iff.mpr
  mul _ _ := (hall _).imp fun _ => Exact.mul_eq_ok_iff.mpr
  neg _ := (hall _).imp fun _ => Exact.neg_eq_ok_iff.mpr

/-- Floating-point numbers are rounded, and too large ones are infinite. -/
lemma double : Unfailing Float where
  add _ _ := ⟨_, rfl⟩
  sub _ _ := ⟨_, rfl⟩
  mul _ _ := ⟨_, rfl⟩
  neg _ := ⟨_, rfl⟩

lemma single : Unfailing Float32 where
  add _ _ := ⟨_, rfl⟩
  sub _ _ := ⟨_, rfl⟩
  mul _ _ := ⟨_, rfl⟩
  neg _ := ⟨_, rfl⟩

lemma not_overflows (hα : Unfailing α) (o : Overflow) : ¬ Overflows α o := by
  rintro ⟨x, y, h | h | h⟩
  · obtain ⟨z, hz⟩ := hα.add x y
    cases hz.symm.trans h
  · obtain ⟨z, hz⟩ := hα.sub x y
    cases hz.symm.trans h
  · obtain ⟨z, hz⟩ := hα.mul x y
    cases hz.symm.trans h

/-- No bound has to be kept. -/
lemma keepsBounds (hα : Unfailing α) (L : ℕ) : KeepsBounds L fun _ (_ : α) => True where
  zero := trivial
  one := trivial
  add _ _ _ := (hα.add _ _).imp fun _ hz => ⟨hz, trivial⟩
  sub _ _ _ := (hα.sub _ _).imp fun _ hz => ⟨hz, trivial⟩
  mul _ _ _ := (hα.mul _ _).imp fun _ hz => ⟨hz, trivial⟩
  neg _ _ := (hα.neg _).imp fun _ hz => ⟨hz, trivial⟩

/-! ### Matrices -/

/-- The determinant of a square matrix whose minors fit is computed. -/
lemma exists_determinant_eq_ok (hα : Unfailing α) (x : Grid α n n)
    (h : 3 ≤ n → Shape.Fits (Element.bytes α) ⟨n - 1, n - 1⟩) :
    ∃ d, DenseMatrix.determinant ⟨n, n, x⟩ = .ok d := by
  obtain ⟨d, hd, -⟩ :=
    (hα.keepsBounds _).exists_det_eq_ok one_pos (g := x) (fun _ _ => trivial) le_rfl
  exact ⟨d, by rw [DenseMatrix.determinant_mk x h, hd]; rfl⟩

/-- The adjugate of a square matrix whose minors fit is computed. -/
lemma exists_adjugate_eq_ok (hα : Unfailing α) (x : Grid α n n)
    (h : 2 ≤ n → Shape.Fits (Element.bytes α) ⟨n - 1, n - 1⟩) :
    ∃ y : Grid α n n, DenseMatrix.adjugate ⟨n, n, x⟩ = .ok ⟨n, n, y⟩ := by
  obtain ⟨y, hy, -⟩ :=
    (hα.keepsBounds _).exists_adjugate_eq_ok one_pos (g := x) (fun _ _ => trivial) le_rfl
  exact ⟨y, by rw [DenseMatrix.adjugate_mk x h, hy]; rfl⟩

/-- Every power of a square matrix is computed. -/
lemma exists_power_eq_ok (hα : Unfailing α) {a : DenseMatrix α} (ha : a.rows = a.cols) (k : ℕ) :
    ∃ b, a.power k = .ok b ∧ b.shape = a.shape :=
  (DenseMatrix.answers_power ha k).exists_eq_ok hα.not_overflows

end Unfailing

end MatrixReckoner
