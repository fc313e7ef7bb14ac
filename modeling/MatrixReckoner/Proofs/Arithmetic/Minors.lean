import MatrixReckoner.Grid.Algebra
import MatrixReckoner.Proofs.Arithmetic.Quarters

/-!
Determinants and adjugates of matrices are those of their grids: no check of a position or of a
shape fails on the way, if the minors can be stored.

* `mapError_foldlM`, `ofArithmetic_tabulate`: folds and tables with their errors rewritten.
* `Shape.Fits.of_le`, `Shape.Fits.minors`: what a shape that fits says about smaller ones.
* `DenseMatrix.get_mk`, `DenseMatrix.submatrix_mk`: the checked operations at a position of a matrix
  are the operations on grids.
* `DenseMatrix.expansion_mk`, `DenseMatrix.determinant_mk`, `DenseMatrix.adjugate_mk`: so are
  determinants and adjugates.
* `DenseMatrix.det_eq_ok_of_determinant`, `DenseMatrix.exists_of_adjugate_eq_ok`: what is computed
  of a matrix is computed of its grid.
-/

namespace MatrixReckoner

open MatrixError (ofArithmetic ofArithmetic_eq_ok_iff)

variable {α β γ : Type}

/-! ### Errors rewritten -/

lemma mapError_foldlM {ε ε' : Type} (e : ε → ε') (f : γ → β → Except ε γ) (l : List β) (c : γ) :
    (l.foldlM f c).mapError e = l.foldlM (fun c b => (f c b).mapError e) c := by
  induction l generalizing c with
  | nil => rfl
  | cons b l ih =>
      rw [List.foldlM_cons, List.foldlM_cons, mapError_bind]
      exact bind_congr ih

lemma ofArithmetic_foldlM (f : γ → β → Except Overflow γ) (l : List β) (c : γ) :
    ofArithmetic (l.foldlM f c) = l.foldlM (fun c b => ofArithmetic (f c b)) c :=
  mapError_foldlM MatrixError.overflow f l c

lemma ofArithmetic_ofFnM {n : ℕ} (f : Fin n → Except Overflow β) :
    ofArithmetic (Vector.ofFnM f) = Vector.ofFnM fun i => ofArithmetic (f i) := by
  induction n with
  | zero =>
      rw [Vector.ofFnM_zero, Vector.ofFnM_zero]
      rfl
  | succ n ih =>
      rw [Vector.ofFnM_succ, Vector.ofFnM_succ, ofArithmetic_bind, ih]
      exact bind_congr fun _ => ofArithmetic_bind _ _

lemma ofArithmetic_map (f : β → γ) (x : Except Overflow β) :
    ofArithmetic (f <$> x) = f <$> ofArithmetic x := by
  cases x <;> rfl

lemma ofArithmetic_tabulate {m n : ℕ} (f : Fin m → Fin n → Except Overflow β) :
    ofArithmetic (Grid.tabulate f) = Grid.tabulate fun i j => ofArithmetic (f i j) := by
  rw [Grid.tabulate, Grid.tabulate, ofArithmetic_map, ofArithmetic_ofFnM]
  simp only [ofArithmetic_ofFnM]

/-! ### Shapes of minors -/

namespace Shape.Fits

variable {bytes k n : ℕ}

/-- Smaller square matrices fit, too. -/
lemma of_le (hn : Shape.Fits bytes ⟨n, n⟩) (hk : 1 ≤ k) (h : k ≤ n) : Shape.Fits bytes ⟨k, k⟩ := by
  have hstore : k * k * bytes ≤ n * n * bytes :=
    Nat.mul_le_mul_right bytes (Nat.mul_le_mul h h)
  exact ⟨hk, hk, hstore.trans hn.2.2⟩

/-- The minors of a matrix that fits and has more than one row fit. -/
lemma minors (hn : Shape.Fits bytes ⟨n, n⟩) (h : 2 ≤ n) : Shape.Fits bytes ⟨n - 1, n - 1⟩ :=
  hn.of_le (by omega) (Nat.sub_le n 1)

/-- Numbers without a storage size fit in any number. -/
lemma of_bytes_eq_zero (h : bytes = 0) (hn : 1 ≤ n) : Shape.Fits bytes ⟨n, n⟩ := by
  subst h
  exact ⟨hn, hn, Nat.zero_le _⟩

end Shape.Fits

namespace DenseMatrix

variable {m n : ℕ}

/-! ### Operations at a position -/

lemma get_mk (x : Grid α m n) (i : Fin m) (j : Fin n) : get ⟨m, n, x⟩ i j = .ok (x.entry i j) :=
  dif_pos ⟨i.isLt, j.isLt⟩

variable [Element α]

lemma submatrix_mk (h : Shape.Fits (Element.bytes α) ⟨m, n⟩) (x : Grid α (m + 1) (n + 1))
    (i : Fin (m + 1)) (j : Fin (n + 1)) :
    submatrix ⟨m + 1, n + 1, x⟩ i j = .ok ⟨m, n, x.minor i j⟩ := by
  rw [submatrix, dif_pos ⟨i.isLt, j.isLt⟩, checkShape, if_pos h]
  rfl

/-- A matrix has a minor only if this fits. -/
lemma fits_of_submatrix_eq_ok {x : Grid α (m + 1) (n + 1)} {i : Fin (m + 1)} {j : Fin (n + 1)}
    {b : DenseMatrix α} (h : submatrix ⟨m + 1, n + 1, x⟩ i j = .ok b) :
    Shape.Fits (Element.bytes α) ⟨m, n⟩ := by
  rw [submatrix, dif_pos ⟨i.isLt, j.isLt⟩, checkShape] at h
  split at h
  · next hfits => exact hfits
  · cases h

/-! ### Determinants -/

/-- The expansion of a matrix whose minors fit is that of its grid. -/
theorem expansion_mk (x : Grid α n n)
    (h : 3 ≤ n → Shape.Fits (Element.bytes α) ⟨n - 1, n - 1⟩) :
    expansion n ⟨n, n, x⟩ = ofArithmetic x.det := by
  induction x using Grid.det.induct with
  | case1 x => rfl
  | case2 x => rfl
  | case3 x =>
      have hexpansion : expansion 2 ⟨2, 2, x⟩ = (do
          let falling ← ofArithmetic (Element.mul (x.entry 0 0) (x.entry 1 1))
          let rising ← ofArithmetic (Element.mul (x.entry 0 1) (x.entry 1 0))
          ofArithmetic (Element.sub falling rising)) := rfl
      simp only [hexpansion, Grid.det, ofArithmetic_bind]
  | case4 n x ih =>
      have hminor : Shape.Fits (Element.bytes α) ⟨n + 2, n + 2⟩ := h (by omega)
      rw [expansion, Grid.det, ofArithmetic_foldlM]
      congr 1
      funext sum j
      have hentry : get ⟨n + 3, n + 3, x⟩ 0 j = pure (x.entry 0 j) := get_mk x 0 j
      have hsubmatrix : submatrix ⟨n + 3, n + 3, x⟩ 0 j = pure ⟨n + 2, n + 2, x.minor 0 j⟩ :=
        submatrix_mk hminor x 0 j
      simp only [hentry, hsubmatrix, pure_bind, ih j fun _ => hminor.minors (by omega),
        ofArithmetic_bind]
      refine bind_congr fun minor => bind_congr fun term => ?_
      split
      · rfl
      · exact (ofArithmetic_bind _ _).symm

/-- A determinant is expanded only if the minors fit. -/
lemma fits_of_expansion_eq_ok {x : Grid α (n + 3) (n + 3)} {d : α}
    (h : expansion (n + 3) ⟨n + 3, n + 3, x⟩ = .ok d) :
    Shape.Fits (Element.bytes α) ⟨n + 2, n + 2⟩ := by
  rw [expansion, List.finRange_succ, List.foldlM_cons] at h
  obtain ⟨sum, h, -⟩ := bind_eq_ok_iff.mp h
  obtain ⟨entry, -, h⟩ := bind_eq_ok_iff.mp h
  obtain ⟨b, hb, -⟩ := bind_eq_ok_iff.mp h
  exact fits_of_submatrix_eq_ok (i := 0) (j := 0) hb

/-- The determinant of a square matrix whose minors fit is that of its grid. -/
lemma determinant_mk (x : Grid α n n)
    (h : 3 ≤ n → Shape.Fits (Element.bytes α) ⟨n - 1, n - 1⟩) :
    determinant ⟨n, n, x⟩ = ofArithmetic x.det :=
  (if_pos rfl).trans (expansion_mk x h)

/-- A determinant that is computed is that of the grid. -/
lemma det_eq_ok_of_determinant {x : Grid α n n} {d : α} (h : determinant ⟨n, n, x⟩ = .ok d) :
    x.det = .ok d := by
  have hexpansion : expansion n ⟨n, n, x⟩ = .ok d := (if_pos rfl).symm.trans h
  have hfits : 3 ≤ n → Shape.Fits (Element.bytes α) ⟨n - 1, n - 1⟩ := by
    intro hn
    obtain ⟨k, rfl⟩ : ∃ k, n = k + 3 := ⟨n - 3, by omega⟩
    exact fits_of_expansion_eq_ok hexpansion
  rwa [expansion_mk x hfits, ofArithmetic_eq_ok_iff] at hexpansion

lemma determinant_eq_notSquare {a : DenseMatrix α} (h : a.rows ≠ a.cols) :
    a.determinant = .error (.notSquare a.rows a.cols) :=
  if_neg h

/-! ### Adjugates -/

lemma cofactor_mk (h : Shape.Fits (Element.bytes α) ⟨n + 1, n + 1⟩)
    (x : Grid α (n + 2) (n + 2)) (i j : Fin (n + 2)) :
    cofactor ⟨n + 2, n + 2, x⟩ i j = ofArithmetic (x.cofactor i j) := by
  have hsubmatrix : submatrix ⟨n + 2, n + 2, x⟩ i j = pure ⟨n + 1, n + 1, x.minor i j⟩ :=
    submatrix_mk h x i j
  have hexpansion :
      expansion (n + 1) ⟨n + 1, n + 1, x.minor i j⟩ = ofArithmetic (x.minor i j).det :=
    expansion_mk _ fun _ => h.minors (by omega)
  rw [cofactor, hsubmatrix, pure_bind, Grid.cofactor, ofArithmetic_bind, ← hexpansion]
  rfl

/-- The adjugate of a square matrix whose minors fit is that of its grid. -/
theorem adjugate_mk (x : Grid α n n)
    (h : 2 ≤ n → Shape.Fits (Element.bytes α) ⟨n - 1, n - 1⟩) :
    adjugate ⟨n, n, x⟩ = (⟨n, n, ·⟩) <$> ofArithmetic x.adjugate := by
  rw [adjugate, if_neg (not_not.mpr rfl)]
  match n with
  | 0 =>
    have htabulate : ∀ f : Fin 0 → Fin 0 → Except MatrixError α, Grid.tabulate f = pure x :=
      fun f => Grid.tabulate_eq_ok_iff.mpr fun i => i.elim0
    have htranspose : x.transpose = x := Grid.ext fun i => i.elim0
    rw [if_neg Nat.zero_ne_one, htabulate, pure_bind, htranspose]
    rfl
  | 1 =>
    have htabulate : Grid.tabulate x.cofactor = .ok (Grid.identity 1).transpose := by
      refine Grid.tabulate_eq_ok_iff.mpr fun (i j : Fin 1) => ?_
      rw [Subsingleton.elim i 0, Subsingleton.elim j 0, Grid.entry_transpose, Grid.identity,
        Grid.entry_ofFn]
      rfl
    rw [if_pos rfl, Grid.adjugate, htabulate]
    exact congrArg (fun y => Except.ok (⟨1, 1, y⟩ : DenseMatrix α))
      (Grid.transpose_transpose _).symm
  | n + 2 =>
    have hcofactor : ∀ i j : Fin (n + 2),
        cofactor ⟨n + 2, n + 2, x⟩ i j = ofArithmetic (x.cofactor i j) :=
      cofactor_mk (h (by omega)) x
    rw [if_neg (Nat.succ_succ_ne_one n), Grid.adjugate]
    simp only [hcofactor, ← ofArithmetic_tabulate]
    cases Grid.tabulate x.cofactor <;> rfl

/-- An adjugate is computed only if the minors fit. -/
lemma fits_of_adjugate_eq_ok {x : Grid α (n + 2) (n + 2)} {b : DenseMatrix α}
    (h : adjugate ⟨n + 2, n + 2, x⟩ = .ok b) : Shape.Fits (Element.bytes α) ⟨n + 1, n + 1⟩ := by
  rw [adjugate, if_neg (not_not.mpr rfl), if_neg (Nat.succ_succ_ne_one n)] at h
  obtain ⟨cofactors, h, -⟩ := bind_eq_ok_iff.mp h
  have hcofactor := Grid.tabulate_eq_ok_iff.mp h 0 0
  obtain ⟨b, hb, -⟩ := bind_eq_ok_iff.mp hcofactor
  exact fits_of_submatrix_eq_ok (i := 0) (j := 0) hb

/-- An adjugate that is computed is that of the grid. -/
lemma exists_of_adjugate_eq_ok {x : Grid α n n} {b : DenseMatrix α}
    (h : adjugate ⟨n, n, x⟩ = .ok b) : ∃ y, x.adjugate = .ok y ∧ b = ⟨n, n, y⟩ := by
  have hfits : 2 ≤ n → Shape.Fits (Element.bytes α) ⟨n - 1, n - 1⟩ := by
    intro hn
    obtain ⟨k, rfl⟩ : ∃ k, n = k + 2 := ⟨n - 2, by omega⟩
    exact fits_of_adjugate_eq_ok h
  rw [adjugate_mk x hfits, map_eq_ok_iff] at h
  obtain ⟨y, hy, rfl⟩ := h
  exact ⟨y, ofArithmetic_eq_ok_iff.mp hy, rfl⟩

lemma adjugate_eq_notSquare {a : DenseMatrix α} (h : a.rows ≠ a.cols) :
    a.adjugate = .error (.notSquare a.rows a.cols) :=
  if_pos h

end DenseMatrix

end MatrixReckoner
