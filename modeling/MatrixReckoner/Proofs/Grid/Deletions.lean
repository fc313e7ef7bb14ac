import MatrixReckoner.Proofs.Grid.RowViews

/-!
What is left of a matrix without one row and one column.

* `without`, `without_ofFn`: a list without the element at one place.
* `Grid.deleted`, `Grid.deleted_toList`: a row-major list is cut into rows, one of them is left out,
  and one entry of each of the others; this lists the minor.
* `Shape.Fits.minor_iff`: when something is left.
* `DenseMatrix.submatrix_of_lt`: inside the matrix, only the shape of what is left decides.
* `DenseMatrix.submatrix_transpose_eq_ok_iff`: deletion and transposition commute.
* `DenseMatrix.submatrix_by_position`: all answers, and the entries of what is left.
-/

namespace MatrixReckoner

variable {α : Type}

/-! ### Lists without one element -/

/-- The list without the element at a place: its elements are numbered from the left, and those with
another number are kept. -/
def without (l : List α) (p : ℕ) : List α :=
  (l.zipIdx.filter fun (_, i) => i ≠ p).map Prod.fst

/-- Elements whose numbers start at `k` are kept unless they have the number `k + p`. -/
lemma map_filter_zipIdx (l : List α) (k p : ℕ) :
    ((l.zipIdx k).filter fun (_, i) => i ≠ k + p).map Prod.fst = l.eraseIdx p := by
  induction l generalizing k p with
  | nil => simp
  | cons x l ih =>
      rw [List.zipIdx_cons]
      cases p with
      | zero =>
          have hkept : (l.zipIdx (k + 1)).filter (fun (_, i) => i ≠ k + 0) = l.zipIdx (k + 1) := by
            refine List.filter_eq_self.mpr fun y hy => ?_
            have hlarge := List.le_snd_of_mem_zipIdx hy
            simp only [ne_eq, decide_eq_true_eq]
            omega
          rw [List.filter_cons_of_neg (by simp), hkept, List.zipIdx_map_fst,
            List.eraseIdx_cons_zero]
      | succ p =>
          rw [List.filter_cons_of_pos (by simp), List.map_cons, List.eraseIdx_cons_succ,
            ← ih (k + 1) p, show k + (p + 1) = k + 1 + p by omega]

lemma without_eq_eraseIdx (l : List α) (p : ℕ) : without l p = l.eraseIdx p := by
  rw [without, ← map_filter_zipIdx l 0 p, Nat.zero_add]

lemma without_ofFn {n : ℕ} (f : Fin (n + 1) → α) (p : Fin (n + 1)) :
    without (List.ofFn f) p = List.ofFn fun i => f (Grid.skip p i) := by
  have hlength : ((List.ofFn f).eraseIdx p).length = n := by simp [List.length_eraseIdx, p.is_le]
  rw [without_eq_eraseIdx]
  refine List.ext_getElem (by rw [hlength, List.length_ofFn]) fun i hi hi' => ?_
  rw [List.getElem_eraseIdx, List.getElem_ofFn]
  split
  · next h => simp [Grid.skip, h]
  · next h => simp [Grid.skip, h]

/-! ### Minors -/

namespace Grid

variable {m n : ℕ}

/-- The entries of a row-major list with rows of `n` entries, without those of one row and those of
one column. -/
def deleted (data : List α) (n row col : ℕ) : List α :=
  (without (chunks n data) row).flatMap fun entries => without entries col

/-- What is left of a grid lists the minor. -/
theorem deleted_toList (g : Grid α (m + 1) (n + 1)) (p : Fin (m + 1)) (q : Fin (n + 1)) :
    deleted g.toList (n + 1) p q = (g.minor p q).toList := by
  have hrows : chunks (n + 1) g.toList = List.ofFn fun i => List.ofFn (g.entry i) := by
    rw [toList, chunks_flatten n.succ_pos fun _ => g.length_of_mem_toRows, ← toRows_ofFn,
      ofFn_entry]
  rw [deleted, hrows, without_ofFn, List.flatMap_def, List.map_ofFn, minor, toList_ofFn]
  simp only [Function.comp_def, without_ofFn]

end Grid

/-- What is left of a shape that fits, fits as well unless there was one row or one column. -/
lemma Shape.Fits.minor_iff {bytes m n : ℕ} (h : Shape.Fits bytes ⟨m + 1, n + 1⟩) :
    Shape.Fits bytes ⟨m, n⟩ ↔ ¬ (m + 1 = 1 ∨ n + 1 = 1) := by
  have hstore : m * n * bytes ≤ maxStore :=
    (Nat.mul_le_mul_right bytes (Nat.mul_le_mul m.le_succ n.le_succ)).trans h.2.2
  constructor
  · rintro ⟨hm, hn, -⟩
    dsimp only at hm hn
    omega
  · intro hne
    exact ⟨by dsimp only; omega, by dsimp only; omega, hstore⟩

namespace DenseMatrix

variable {m n : ℕ}

/-- What is left keeps its entries: those below the row or to the right of the column move by one
position. -/
lemma get_minor (g : Grid α (m + 1) (n + 1)) (p : Fin (m + 1)) (q : Fin (n + 1)) {i j : ℕ}
    (hi : i < m) (hj : j < n) :
    ∃ x, get ⟨m, n, g.minor p q⟩ i j = .ok x ∧
      get ⟨m + 1, n + 1, g⟩ (i + if p ≤ i then 1 else 0) (j + if q ≤ j then 1 else 0) = .ok x := by
  have hplace : ∀ {k : ℕ} (r : Fin (k + 1)) (l : Fin k),
      l.val + (if r ≤ l.val then 1 else 0) = (Grid.skip r l).val := by
    intro k r l
    rw [Grid.val_skip]
    split <;> split <;> omega
  refine ⟨g.entry (Grid.skip p ⟨i, hi⟩) (Grid.skip q ⟨j, hj⟩), ?_, ?_⟩
  · rw [← Grid.entry_minor]
    exact get_mk (g.minor p q) ⟨i, hi⟩ ⟨j, hj⟩
  · rw [hplace p ⟨i, hi⟩, hplace q ⟨j, hj⟩]
    exact get_mk g _ _

variable [Element α]

/-- Inside the matrix, the shape of what is left decides. -/
lemma submatrix_of_lt (g : Grid α (m + 1) (n + 1)) (p : Fin (m + 1)) (q : Fin (n + 1)) :
    submatrix ⟨m + 1, n + 1, g⟩ p q =
      if Shape.Fits (Element.bytes α) ⟨m, n⟩ then .ok ⟨m, n, g.minor p q⟩
      else .error (.invalidDimension m n) := by
  split
  · next h => exact submatrix_mk h g p q
  · next h =>
      rw [submatrix, dif_pos ⟨p.isLt, q.isLt⟩, checkShape, if_neg h]
      rfl

/-- Outside the matrix, the position is refused. -/
lemma submatrix_of_not_lt (g : Grid α (m + 1) (n + 1)) {row col : ℕ}
    (h : ¬ (row < m + 1 ∧ col < n + 1)) :
    submatrix ⟨m + 1, n + 1, g⟩ row col = .error (.indexOutOfRange row col (m + 1) (n + 1)) :=
  dif_neg h

lemma submatrix_eq_indexOutOfRange_iff (g : Grid α (m + 1) (n + 1)) (row col : ℕ) :
    submatrix ⟨m + 1, n + 1, g⟩ row col = .error (.indexOutOfRange row col (m + 1) (n + 1)) ↔
      m + 1 ≤ row ∨ n + 1 ≤ col := by
  by_cases hin : row < m + 1 ∧ col < n + 1
  · have hcases := submatrix_of_lt g ⟨row, hin.1⟩ ⟨col, hin.2⟩
    refine ⟨fun h => ?_, fun h => by omega⟩
    rw [h] at hcases
    split at hcases <;> cases hcases
  · exact ⟨fun _ => by omega, fun _ => submatrix_of_not_lt g hin⟩

lemma submatrix_eq_invalidDimension_iff (h : Shape.Fits (Element.bytes α) ⟨m + 1, n + 1⟩)
    (g : Grid α (m + 1) (n + 1)) (p : Fin (m + 1)) (q : Fin (n + 1)) :
    submatrix ⟨m + 1, n + 1, g⟩ p q = .error (.invalidDimension m n) ↔ m + 1 = 1 ∨ n + 1 = 1 := by
  rw [submatrix_of_lt]
  split
  · next hfits => exact ⟨nofun, fun hone => absurd hone (h.minor_iff.mp hfits)⟩
  · next hfits => exact ⟨fun _ => not_not.mp fun hone => hfits (h.minor_iff.mpr hone),
      fun _ => rfl⟩

lemma exists_of_submatrix_eq_ok {a b : DenseMatrix α} {row col : ℕ}
    (h : a.submatrix row col = .ok b) :
    ∃ (m n : ℕ) (g : Grid α (m + 1) (n + 1)) (p : Fin (m + 1)) (q : Fin (n + 1)),
      a = ⟨m + 1, n + 1, g⟩ ∧ row = p ∧ col = q ∧ Shape.Fits (Element.bytes α) ⟨m, n⟩ ∧
        b = ⟨m, n, g.minor p q⟩ := by
  obtain ⟨_ | m, _ | n, g⟩ := a
  · cases h
  · cases h
  · cases h
  · by_cases hin : row < m + 1 ∧ col < n + 1
    · have hcases := submatrix_of_lt g ⟨row, hin.1⟩ ⟨col, hin.2⟩
      rw [h] at hcases
      split at hcases
      · next hfits =>
          exact ⟨m, n, g, ⟨row, hin.1⟩, ⟨col, hin.2⟩, rfl, rfl, rfl, hfits, Except.ok.inj hcases⟩
      · cases hcases
    · rw [submatrix_of_not_lt g hin] at h
      cases h

/-- What is left of the transpose is the transpose of what is left. -/
lemma transpose_of_submatrix_eq_ok {a b : DenseMatrix α} {row col : ℕ}
    (h : a.submatrix row col = .ok b) : a.transpose.submatrix col row = .ok b.transpose := by
  obtain ⟨m, n, g, p, q, rfl, rfl, rfl, hfits, rfl⟩ := exists_of_submatrix_eq_ok h
  have hswapped : Shape.Fits (Element.bytes α) ⟨n, m⟩ :=
    ⟨hfits.2.1, hfits.1, (Nat.mul_comm n m).symm ▸ hfits.2.2⟩
  rw [transpose, transpose, submatrix_mk hswapped, Grid.transpose_minor]

/-- Deletion and transposition commute. -/
lemma submatrix_transpose_eq_ok_iff {a b : DenseMatrix α} {row col : ℕ} :
    a.transpose.submatrix col row = .ok b.transpose ↔ a.submatrix row col = .ok b := by
  refine ⟨fun h => ?_, transpose_of_submatrix_eq_ok⟩
  have htwice := transpose_of_submatrix_eq_ok h
  simpa [transpose] using htwice

/-- **Minors.**  A position outside the matrix is refused; inside, a matrix of one row or one column
is refused, for nothing would be left of it, and any other loses one row and one column.  Its
entries are those of the matrix, moved by one position where they were below the row or to the right
of the column, and its list is what a row-major list keeps that is cut into rows.  Deletion and
transposition commute. -/
theorem submatrix_by_position (a : DenseMatrix α) (h : a.shape.Fits (Element.bytes α))
    (row col : ℕ) :
    (a.submatrix row col = .error (.indexOutOfRange row col a.rows a.cols) ↔
      a.rows ≤ row ∨ a.cols ≤ col) ∧
    (row < a.rows → col < a.cols →
      (a.submatrix row col = .error (.invalidDimension (a.rows - 1) (a.cols - 1)) ↔
        a.rows = 1 ∨ a.cols = 1) ∧
      (¬ (a.rows = 1 ∨ a.cols = 1) →
        ∃ b, a.submatrix row col = .ok b ∧ b.shape = ⟨a.rows - 1, a.cols - 1⟩ ∧
          (∀ i < a.rows - 1, ∀ j < a.cols - 1, ∃ x, b.get i j = .ok x ∧
            a.get (i + if row ≤ i then 1 else 0) (j + if col ≤ j then 1 else 0) = .ok x) ∧
          b.toList = Grid.deleted a.toList a.cols row col)) ∧
    ∀ b, a.transpose.submatrix col row = .ok b.transpose ↔ a.submatrix row col = .ok b := by
  obtain ⟨_ | m, _ | n, g⟩ := a
  · exact absurd h.1 (Nat.not_succ_le_zero 0)
  · exact absurd h.1 (Nat.not_succ_le_zero 0)
  · exact absurd h.2.1 (Nat.not_succ_le_zero 0)
  · refine ⟨submatrix_eq_indexOutOfRange_iff g row col, fun hrow hcol => ⟨?_, fun hne => ?_⟩,
      fun b => submatrix_transpose_eq_ok_iff⟩
    · exact submatrix_eq_invalidDimension_iff h g ⟨row, hrow⟩ ⟨col, hcol⟩
    · have hfits := h.minor_iff.mpr hne
      exact ⟨_, submatrix_mk hfits g ⟨row, hrow⟩ ⟨col, hcol⟩, rfl,
        fun i hi j hj => get_minor g ⟨row, hrow⟩ ⟨col, hcol⟩ hi hj,
        (g.deleted_toList ⟨row, hrow⟩ ⟨col, hcol⟩).symm⟩

/-- A matrix of two rows and three columns: a position below it, what is left without the second row
and the first column, and what is left of its transpose; and a matrix of one row. -/
theorem submatrix_by_position_of_two_rows :
    let x : BoundedInt .w32 := .zero
    let y : BoundedInt .w32 := .one
    let a : DenseMatrix (BoundedInt .w32) := ⟨2, 3, .ofVector #v[x, y, x, y, y, x]⟩
    let c : DenseMatrix (BoundedInt .w32) := ⟨1, 3, .ofVector #v[x, y, x]⟩
    a.shape.Fits 4 ∧ c.shape.Fits 4 ∧
      a.submatrix 2 0 = .error (.indexOutOfRange 2 0 2 3) ∧
      c.submatrix 0 0 = .error (.invalidDimension 0 2) ∧
      ∃ b, a.submatrix 1 0 = .ok b ∧ b.shape = ⟨1, 2⟩ ∧
        (∃ z, b.get 0 1 = .ok z ∧ a.get 0 2 = .ok z) ∧ b.toList = Grid.deleted a.toList 3 1 0 ∧
        a.transpose.submatrix 0 1 = .ok b.transpose := by
  intro x y a c
  have ha : a.shape.Fits (Element.bytes (BoundedInt .w32)) := by decide
  have hc : c.shape.Fits (Element.bytes (BoundedInt .w32)) := by decide
  obtain ⟨-, hinside, hcommutes⟩ := submatrix_by_position a ha 1 0
  obtain ⟨b, hb, hshape, hentries, hlist⟩ := (hinside (by decide) (by decide)).2 (by decide)
  exact ⟨ha, hc, (submatrix_by_position a ha 2 0).1.mpr (by decide),
    ((submatrix_by_position c hc 0 0).2.1 (by decide) (by decide)).1.mpr (by decide),
    b, hb, hshape, hentries 0 (by decide) 1 (by decide), hlist, (hcommutes b).mpr hb⟩

end DenseMatrix

end MatrixReckoner
