import MatrixReckoner.Proofs.Arithmetic.Unfailing

/-!
Why determinants, adjugates, inverses and powers of matrices of floating-point numbers fail: the
matrix is not square, or an inverse is needed and the determinant is zero.

* `DenseMatrix.AnswersByDeterminant`: the answers about a matrix, by its shape and its determinant.
* `DenseMatrix.inverse_eq_notSquare`, `DenseMatrix.integerPower_eq_notSquare`: matrices that are not
  square.
* `DenseMatrix.inverse_of_determinant_eq_zero`, `Unfailing.exists_inverse_eq_ok`,
  `Unfailing.exists_integerPower_eq_ok`: inverses and powers of square matrices.
* `Unfailing.answersByDeterminant`: the answers over numbers whose arithmetic never fails.
* `DenseMatrix.analytic_answers_by_determinant`: the same of both kinds of floating-point numbers.
-/

namespace MatrixReckoner

variable {α : Type} [Analytic α] {a : DenseMatrix α}

namespace DenseMatrix

/-- What is answered about a matrix: nothing else than its shape and, for an inverse or a power
below zero, a determinant that is zero makes an operation fail. -/
structure AnswersByDeterminant (a : DenseMatrix α) : Prop where
  /-- A matrix that is not square is refused for that, whatever the exponent. -/
  of_not_square : a.rows ≠ a.cols →
    a.determinant = .error (.notSquare a.rows a.cols) ∧
    a.isRegular = .error (.notSquare a.rows a.cols) ∧
    a.adjugate = .error (.notSquare a.rows a.cols) ∧
    a.inverse = .error (.notSquare a.rows a.cols) ∧
    ∀ k, a.integerPower k = .error (.notSquare a.rows a.cols)
  /-- A square matrix has a determinant and an adjugate.  If the determinant is zero, there is no
  inverse and no power below zero; every other inverse and power has the shape of the matrix. -/
  of_square : a.rows = a.cols → ∃ d, a.determinant = .ok d ∧
    a.isRegular = .ok (!(d == Element.zero)) ∧
    (∃ b, a.adjugate = .ok b ∧ b.shape = a.shape) ∧
    (if d == Element.zero then a.inverse = .error .singular
      else ∃ b, a.inverse = .ok b ∧ b.shape = a.shape) ∧
    ∀ k, if k < 0 ∧ d == Element.zero then a.integerPower k = .error .singular
      else ∃ b, a.integerPower k = .ok b ∧ b.shape = a.shape

/-! ### Matrices that are not square -/

lemma isRegular_eq_notSquare (h : a.rows ≠ a.cols) :
    a.isRegular = .error (.notSquare a.rows a.cols) := by
  rw [isRegular, determinant_eq_notSquare h]
  rfl

lemma inverse_eq_notSquare (h : a.rows ≠ a.cols) :
    a.inverse = .error (.notSquare a.rows a.cols) := by
  rw [inverse, determinant_eq_notSquare h]
  rfl

lemma integerPower_eq_notSquare (h : a.rows ≠ a.cols) (k : ℤ) :
    a.integerPower k = .error (.notSquare a.rows a.cols) := by
  rw [integerPower, inverse_eq_notSquare h, power_eq_notSquare h]
  exact ite_self _

/-! ### Square matrices -/

lemma isRegular_of_determinant {d : α} (hd : a.determinant = .ok d) :
    a.isRegular = .ok (!(d == Element.zero)) := by
  rw [isRegular, hd]
  rfl

lemma inverse_of_determinant_eq_zero {d : α} (hd : a.determinant = .ok d)
    (hzero : d == Element.zero) : a.inverse = .error .singular := by
  rw [inverse, hd]
  exact if_pos hzero

lemma integerPower_of_determinant_eq_zero {d : α} (hd : a.determinant = .ok d)
    (hzero : d == Element.zero) {k : ℤ} (hk : k < 0) : a.integerPower k = .error .singular := by
  rw [integerPower, if_pos hk, inverse_of_determinant_eq_zero hd hzero]
  rfl

omit [Analytic α] in
/-- The entries are rewritten by a computation that never fails. -/
lemma exists_mapM_eq_ok {f : α → Except Overflow α} (hf : ∀ x, ∃ y, f x = .ok y)
    (a : DenseMatrix α) : ∃ b, a.mapM f = .ok b ∧ b.shape = a.shape := by
  obtain ⟨g, hg, -⟩ := Grid.exists_tabulate_eq_ok (P := fun _ _ _ => True) fun i j =>
    (hf (a.cells.entry i j)).imp fun _ hy => ⟨hy, trivial⟩
  have hmap : a.cells.mapM f = .ok g := hg
  exact ⟨⟨a.rows, a.cols, g⟩, by rw [mapM, hmap]; rfl, rfl⟩

end DenseMatrix

namespace Unfailing

/-- A determinant that is not zero has a reciprocal, by which the adjugate is multiplied. -/
lemma exists_inverse_eq_ok (hα : Unfailing α) {b : DenseMatrix α} {d : α}
    (hd : a.determinant = .ok d) (hb : a.adjugate = .ok b) (hshape : b.shape = a.shape)
    (hne : ¬ d == Element.zero) : ∃ c, a.inverse = .ok c ∧ c.shape = a.shape := by
  have hentry : ∀ x : α, ∃ y,
      (do Element.add (← Element.mul x (Analytic.recip d)) Element.zero) = .ok y := by
    intro x
    obtain ⟨y, hy⟩ := hα.mul x (Analytic.recip d)
    obtain ⟨z, hz⟩ := hα.add y Element.zero
    exact ⟨z, bind_eq_ok_iff.mpr ⟨y, hy, hz⟩⟩
  obtain ⟨c, hc, hcshape⟩ := DenseMatrix.exists_mapM_eq_ok hentry b
  refine ⟨c, ?_, hcshape.trans hshape⟩
  rw [DenseMatrix.inverse, hd, hb]
  exact (if_neg hne).trans hc

/-- A power below zero is one of the inverse. -/
lemma exists_integerPower_eq_ok (hα : Unfailing α) (ha : a.rows = a.cols) {k : ℤ}
    (hinverse : k < 0 → ∃ b, a.inverse = .ok b ∧ b.shape = a.shape) :
    ∃ c, a.integerPower k = .ok c ∧ c.shape = a.shape := by
  rw [DenseMatrix.integerPower]
  split
  · next hneg =>
    obtain ⟨b, hb, hshape⟩ := hinverse hneg
    have hsquare : b.rows = b.cols :=
      (congrArg Shape.rows hshape).trans (ha.trans (congrArg Shape.cols hshape).symm)
    obtain ⟨c, hc, hcshape⟩ := hα.exists_power_eq_ok hsquare k.natAbs
    rw [hb]
    exact ⟨c, hc, hcshape.trans hshape⟩
  · exact hα.exists_power_eq_ok ha k.natAbs

/-- **Over numbers whose arithmetic never fails** the shape and the determinant decide the answers
about every matrix that can be stored. -/
theorem answersByDeterminant (hα : Unfailing α) (hfits : a.shape.Fits (Element.bytes α)) :
    a.AnswersByDeterminant where
  of_not_square h := ⟨DenseMatrix.determinant_eq_notSquare h,
    DenseMatrix.isRegular_eq_notSquare h, DenseMatrix.adjugate_eq_notSquare h,
    DenseMatrix.inverse_eq_notSquare h, DenseMatrix.integerPower_eq_notSquare h⟩
  of_square h := by
    obtain ⟨n, _, x⟩ := a
    obtain rfl : n = _ := h
    have hminors : 2 ≤ n → Shape.Fits (Element.bytes α) ⟨n - 1, n - 1⟩ := hfits.minors
    obtain ⟨d, hd⟩ := hα.exists_determinant_eq_ok x fun hn => hminors (by omega)
    obtain ⟨y, hy⟩ := hα.exists_adjugate_eq_ok x hminors
    have hinverse : ¬ d == Element.zero → _ := hα.exists_inverse_eq_ok hd hy rfl
    refine ⟨d, hd, DenseMatrix.isRegular_of_determinant hd, ⟨_, hy, rfl⟩, ?_, fun k => ?_⟩
    · split
      · next hzero => exact DenseMatrix.inverse_of_determinant_eq_zero hd hzero
      · next hne => exact hinverse hne
    · split
      · next hk => exact DenseMatrix.integerPower_of_determinant_eq_zero hd hk.2 hk.1
      · next hk =>
        exact hα.exists_integerPower_eq_ok rfl fun hneg => hinverse fun hzero => hk ⟨hneg, hzero⟩

end Unfailing

namespace DenseMatrix

/-- **Why determinants, adjugates, inverses and powers fail**: for floating-point numbers in double
and in single precision, and every matrix of them that can be stored, of whichever order.

No check of a position or of a shape fails on the way, neither in a minor nor in a product. -/
theorem analytic_answers_by_determinant :
    (∀ a : DenseMatrix Float, a.shape.Fits (Element.bytes Float) → a.AnswersByDeterminant) ∧
    ∀ a : DenseMatrix Float32, a.shape.Fits (Element.bytes Float32) → a.AnswersByDeterminant :=
  ⟨fun _ => Unfailing.double.answersByDeterminant, fun _ => Unfailing.single.answersByDeterminant⟩

/-- The singular matrix with the rows 1 2 and 2 4. -/
theorem analytic_answers_by_determinant_of_singular :
    ∃ a : DenseMatrix Float, a.shape.Fits (Element.bytes Float) ∧ a.rows = a.cols ∧
      a.isRegular = .ok false ∧ a.AnswersByDeterminant := by
  let a : DenseMatrix Float := ⟨2, 2, .ofVector #v[1, 2, 2, 4]⟩
  have hfits : a.shape.Fits (Element.bytes Float) := by decide
  exact ⟨a, hfits, rfl, by decide +kernel, analytic_answers_by_determinant.1 a hfits⟩

end DenseMatrix

end MatrixReckoner
