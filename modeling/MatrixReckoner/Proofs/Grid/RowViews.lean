import MatrixReckoner.Element.BoundedInt
import MatrixReckoner.Proofs.Grid.Places

/-!
A matrix is made of rows, and shows these rows again.

* `chunks`, `chunks_flatten`: a list cut into pieces of one length.
* `DenseMatrix.ShowsRows`, `DenseMatrix.showsRows_toRows`: all views of a matrix by rows show the
  same rows: the rows of its grid, the pieces of its row-major list, and its single rows, which are
  segments of this list.
* `DenseMatrix.ofRows_eq_invalidDimension`, `DenseMatrix.ofRows_eq_raggedRows`,
  `DenseMatrix.exists_ofRows_eq_ok`: which rows make a matrix, and why others do not.
* `DenseMatrix.copyRows`, `DenseMatrix.ofRows_eq_copyRows`: the rows are put behind each other one
  after another.
* `DenseMatrix.ofRows_toRows`: the rows of a matrix make this matrix.
* `DenseMatrix.ofRows_and_views`: all this together.
-/

namespace MatrixReckoner

variable {α : Type}

/-! ### Pieces of a list -/

/-- The pieces of `n` entries into which a list is cut from the left; the last one may be shorter.
Nothing is cut into pieces without an entry. -/
def chunks (n : ℕ) (l : List α) : List (List α) :=
  if l = [] ∨ n = 0 then [] else l.take n :: chunks n (l.drop n)
termination_by l.length
decreasing_by
  rename_i hne
  have hlength : 0 < l.length := List.length_pos_of_ne_nil fun hl => hne (.inl hl)
  rw [List.length_drop]
  omega

/-- Pieces of rows of one length are the rows. -/
lemma chunks_flatten {n : ℕ} (hn : 0 < n) {rows : List (List α)}
    (hrows : ∀ row ∈ rows, row.length = n) : chunks n rows.flatten = rows := by
  induction rows with
  | nil => rw [List.flatten_nil, chunks, if_pos (.inl rfl)]
  | cons row rows ih =>
      obtain ⟨hrow, hrest⟩ := List.forall_mem_cons.mp hrows
      have hne : ¬ (row ++ rows.flatten = [] ∨ n = 0) := by
        rintro (hnil | hzero)
        · rw [(List.append_eq_nil_iff.mp hnil).1] at hrow
          exact hn.ne hrow
        · exact hn.ne' hzero
      rw [List.flatten_cons, chunks, if_neg hne, List.take_left' hrow, List.drop_left' hrow,
        ih hrest]

namespace Grid

variable {m n : ℕ} (g : Grid α m n)

lemma toList_row (i : Fin m) : (g.row i).toList = List.ofFn (g.entry i) := by
  rw [← Vector.toList_ofFn]
  congr 1
  ext j hj
  simp [entry, row]

lemma getElem?_toRows (r : ℕ) :
    g.toRows[r]? = if h : r < m then some (g.row ⟨r, h⟩).toList else none := by
  split
  · next h => simp [toRows, row, h]
  · next h => exact List.getElem?_eq_none (by rw [length_toRows]; omega)

/-- The grid of rows has these rows. -/
lemma toRows_ofRows {rows : List (List α)} (h : ∀ row ∈ rows, row.length = n) :
    (ofRows rows h).toRows = rows := by
  simp [toRows, ofRows, Function.comp_def]

end Grid

namespace DenseMatrix

variable {a : DenseMatrix α}

/-! ### Views by rows -/

/-- All views of a matrix by rows show the same rows. -/
structure ShowsRows (a : DenseMatrix α) (rows : List (List α)) : Prop where
  /-- These are the rows of the matrix from top to bottom. -/
  toRows : a.toRows = rows
  /-- The row-major list is cut into them. -/
  chunks : chunks a.cols a.toList = rows
  /-- The single rows are these, and no others. -/
  row? : ∀ r, a.row? r = rows[r]?
  /-- A single row is a segment of the row-major list. -/
  segment : ∀ r < a.rows, a.row? r = some (Grid.segment a.toList (r * a.cols) a.cols)

/-- A matrix with columns shows its rows. -/
lemma showsRows_toRows (h : 0 < a.cols) : a.ShowsRows a.toRows where
  toRows := rfl
  chunks := chunks_flatten h fun _ => a.cells.length_of_mem_toRows
  row? r := (a.cells.getElem?_toRows r).symm
  segment r hr := by
    have hrow := a.cells.segment_toList_row ⟨r, hr⟩
    rw [row?, dif_pos hr, a.cells.toList_row, ← hrow]
    rfl

/-! ### Rows copied one after another -/

section Copies

variable {rows : List (List α)} {n : ℕ}

/-- The rows behind each other, up to the first one that does not have `n` entries. -/
def copyRows (n : ℕ) (rows : List (List α)) : Except MatrixError (List α) :=
  rows.zipIdx.foldlM (fun copied (row, r) =>
    if row.length = n then .ok (copied ++ row) else .error (.raggedRows r n row.length)) []

/-- Rows of one length are all copied. -/
lemma copyRows_eq_ok (hrows : ∀ row ∈ rows, row.length = n) :
    copyRows n rows = .ok rows.flatten := by
  have hstep : ∀ p ∈ rows.zipIdx, ∀ copied : List α,
      (if p.1.length = n then .ok (copied ++ p.1) else .error (.raggedRows p.2 n p.1.length)) =
        (pure (copied ++ p.1) : Except MatrixError (List α)) := fun p hp copied =>
    if_pos (hrows p.1 (List.fst_mem_of_mem_zipIdx hp))
  have hflatten : rows.zipIdx.flatMap Prod.fst = rows.flatten := by
    rw [List.flatMap_def, List.zipIdx_map_fst]
  refine (foldlM_found hstep []).trans ?_
  rw [hflatten]
  rfl

/-- The first row of another length ends the copy. -/
lemma copyRows_eq_raggedRows {before behind : List (List α)} {row : List α}
    (hbefore : ∀ row' ∈ before, row'.length = n) (hrow : row.length ≠ n) :
    copyRows n (before ++ row :: behind) = .error (.raggedRows before.length n row.length) := by
  have hcopied : before.zipIdx.foldlM _ [] = pure before.flatten := copyRows_eq_ok hbefore
  rw [copyRows, List.zipIdx_append, List.foldlM_append, hcopied, pure_bind, List.zipIdx_cons,
    List.foldlM_cons]
  simp only [if_neg hrow, Nat.zero_add]
  rfl

/-- Rows that do not all have `n` entries have a first one that does not. -/
lemma exists_first_ragged (h : ¬ ∀ row ∈ rows, row.length = n) :
    ∃ before row behind, rows = before ++ row :: behind ∧
      (∀ row' ∈ before, row'.length = n) ∧ row.length ≠ n := by
  induction rows with
  | nil => exact absurd (fun row hrow => absurd hrow List.not_mem_nil) h
  | cons row rows ih =>
      by_cases hrow : row.length = n
      · have hrest : ¬ ∀ row' ∈ rows, row'.length = n := fun hall =>
          h (List.forall_mem_cons.mpr ⟨hrow, hall⟩)
        obtain ⟨before, row', behind, rfl, hbefore, hrow'⟩ := ih hrest
        exact ⟨row :: before, row', behind, rfl, List.forall_mem_cons.mpr ⟨hrow, hbefore⟩, hrow'⟩
      · exact ⟨[], row, rows, rfl, fun _ h => absurd h List.not_mem_nil, hrow⟩

end Copies

/-! ### Matrices of rows -/

/-- The length of the first row, if there is one. -/
def firstLength (rows : List (List α)) : ℕ :=
  (rows.head?.map List.length).getD 0

variable [Element α] {rows : List (List α)}

lemma ofRows_eq_invalidDimension
    (h : ¬ Shape.Fits (Element.bytes α) ⟨rows.length, firstLength rows⟩) :
    ofRows rows = .error (.invalidDimension rows.length (firstLength rows)) := by
  rw [firstLength] at h ⊢
  rw [ofRows, checkShape, if_neg h]
  rfl

/-- Where the shape fits, the rows are compared with the first one. -/
lemma ofRows_of_fits (h : Shape.Fits (Element.bytes α) ⟨rows.length, firstLength rows⟩) :
    ofRows rows =
      if hrows : ∀ row ∈ rows, row.length = firstLength rows then
        .ok ⟨rows.length, firstLength rows, .ofRows rows hrows⟩
      else
        let r := rows.findIdx fun row => row.length != firstLength rows
        .error (.raggedRows r (firstLength rows) (rows.getD r []).length) := by
  rw [firstLength] at h
  rw [ofRows, checkShape, if_pos h]
  rfl

/-- The first row of another length is refused. -/
lemma ofRows_eq_raggedRows (h : Shape.Fits (Element.bytes α) ⟨rows.length, firstLength rows⟩)
    {before behind : List (List α)} {row : List α} (hrows : rows = before ++ row :: behind)
    (hbefore : ∀ row' ∈ before, row'.length = firstLength rows)
    (hrow : row.length ≠ firstLength rows) :
    ofRows rows = .error (.raggedRows before.length (firstLength rows) row.length) := by
  have hragged : ¬ ∀ row' ∈ rows, row'.length = firstLength rows := fun hall =>
    hrow (hall row (by simp [hrows]))
  have hfind : rows.findIdx (fun row' => row'.length != firstLength rows) = before.length := by
    generalize firstLength rows = n at hbefore hrow
    have hnone : before.findIdx (fun row' => row'.length != n) = before.length :=
      List.findIdx_eq_length_of_false fun row' hrow' => by simp [hbefore row' hrow']
    have hne : (row.length != n) = true := bne_iff_ne.mpr hrow
    rw [hrows, List.findIdx_append, hnone, if_neg (lt_irrefl _), List.findIdx_cons, hne, cond_true,
      Nat.zero_add]
  have hget : rows.getD before.length [] = row := by simp [hrows]
  rw [ofRows_of_fits h, dif_neg hragged]
  simp only [hfind, hget]

/-- Rows of one length make the matrix of their list, and this matrix shows them. -/
lemma exists_ofRows_eq_ok (h : Shape.Fits (Element.bytes α) ⟨rows.length, firstLength rows⟩)
    (hrows : ∀ row ∈ rows, row.length = firstLength rows) :
    ∃ a, ofRows rows = .ok a ∧ a.shape = ⟨rows.length, firstLength rows⟩ ∧ a.ShowsRows rows ∧
      ofList rows.length (firstLength rows) rows.flatten = .ok a := by
  obtain ⟨a, ha, hshape, htoRows⟩ := exists_ofList_flatten_eq_ok hrows h
  have hcols : a.cols = firstLength rows := congrArg Shape.cols hshape
  have hshows : a.ShowsRows a.toRows := showsRows_toRows (hcols ▸ h.2.1)
  have hcells : ⟨rows.length, firstLength rows, .ofRows rows hrows⟩ = a :=
    eq_of_toRows_eq hshape.symm ((Grid.toRows_ofRows hrows).trans htoRows.symm)
  refine ⟨a, ?_, hshape, htoRows ▸ hshows, ha⟩
  rw [ofRows_of_fits h, dif_pos hrows, hcells]

/-- The rows of a matrix make this matrix. -/
lemma ofRows_toRows (h : a.shape.Fits (Element.bytes α)) : ofRows a.toRows = .ok a := by
  have hrows : ∀ row ∈ a.toRows, row.length = a.cols := fun _ => a.cells.length_of_mem_toRows
  have hlength : a.toRows.length = a.rows := a.cells.length_toRows
  have hfirst : firstLength a.toRows = a.cols := by
    have hpos : 0 < a.toRows.length := by
      rw [hlength]
      exact h.1
    obtain ⟨row, rest, hcons⟩ := List.exists_cons_of_length_pos hpos
    rw [hcons] at hrows ⊢
    exact hrows row List.mem_cons_self
  have hshape : (⟨a.toRows.length, firstLength a.toRows⟩ : Shape) = a.shape := by
    rw [hlength, hfirst]
    rfl
  obtain ⟨b, hb, hb', hshows, -⟩ := exists_ofRows_eq_ok (hshape ▸ h) (hfirst.symm ▸ hrows)
  rw [hb, eq_of_toRows_eq (hb'.trans hshape) hshows.toRows]

/-- A matrix is made of rows by checking its shape, copying the rows, and taking the copy as the
row-major list.  The copy has the length that the shape asks for, so nothing is refused after it. -/
theorem ofRows_eq_copyRows (rows : List (List α)) :
    ofRows rows = (do
      checkShape α rows.length (firstLength rows)
      let copied ← copyRows (firstLength rows) rows
      ofList rows.length (firstLength rows) copied) := by
  by_cases hfits : Shape.Fits (Element.bytes α) ⟨rows.length, firstLength rows⟩
  · have hcheck : checkShape α rows.length (firstLength rows) = pure () := if_pos hfits
    rw [hcheck, pure_bind]
    by_cases hrows : ∀ row ∈ rows, row.length = firstLength rows
    · obtain ⟨a, ha, -, -, hlist⟩ := exists_ofRows_eq_ok hfits hrows
      rw [copyRows_eq_ok hrows, ha]
      exact hlist.symm
    · obtain ⟨before, row, behind, heq, hbefore, hrow⟩ := exists_first_ragged hrows
      have hcopy : copyRows (firstLength rows) rows =
          .error (.raggedRows before.length (firstLength rows) row.length) := by
        generalize firstLength rows = n at hbefore hrow
        rw [heq, copyRows_eq_raggedRows hbefore hrow]
      rw [ofRows_eq_raggedRows hfits heq hbefore hrow, hcopy]
      rfl
  · rw [ofRows_eq_invalidDimension hfits, checkShape, if_neg hfits]
    rfl

/-! ### Both ways -/

/-- A matrix of rows is refused for its shape exactly if this does not fit. -/
lemma ofRows_eq_invalidDimension_iff :
    ofRows rows = .error (.invalidDimension rows.length (firstLength rows)) ↔
      ¬ Shape.Fits (Element.bytes α) ⟨rows.length, firstLength rows⟩ := by
  refine ⟨fun herror hfits => ?_, ofRows_eq_invalidDimension⟩
  rw [ofRows_of_fits hfits] at herror
  split at herror <;> cases herror

/-- **Rows in, rows out.**  Rows make a matrix unless its shape, which the number of rows and the
length of the first one set, does not fit, whatever the other rows are, or else one of them has
another length than the first; the first such row is named.  The matrix is that of the rows behind
each other, and each of its views by rows shows these rows.  The rows of any matrix whose shape fits
make this matrix. -/
theorem ofRows_and_views (α : Type) [Element α] :
    (∀ rows : List (List α),
      (ofRows rows = .error (.invalidDimension rows.length (firstLength rows)) ↔
        ¬ Shape.Fits (Element.bytes α) ⟨rows.length, firstLength rows⟩) ∧
      (Shape.Fits (Element.bytes α) ⟨rows.length, firstLength rows⟩ →
        (∀ before row behind, rows = before ++ row :: behind →
          (∀ row' ∈ before, row'.length = firstLength rows) → row.length ≠ firstLength rows →
          ofRows rows = .error (.raggedRows before.length (firstLength rows) row.length)) ∧
        ((∀ row ∈ rows, row.length = firstLength rows) →
          ∃ a, ofRows rows = .ok a ∧ a.shape = ⟨rows.length, firstLength rows⟩ ∧
            a.ShowsRows rows ∧ ofList rows.length (firstLength rows) rows.flatten = .ok a)) ∧
      ofRows rows = (do
        checkShape α rows.length (firstLength rows)
        let copied ← copyRows (firstLength rows) rows
        ofList rows.length (firstLength rows) copied)) ∧
    ∀ a : DenseMatrix α, a.shape.Fits (Element.bytes α) →
      a.ShowsRows a.toRows ∧ ofRows a.toRows = .ok a :=
  ⟨fun rows => ⟨ofRows_eq_invalidDimension_iff,
      fun hfits => ⟨fun _ _ _ => ofRows_eq_raggedRows hfits, exists_ofRows_eq_ok hfits⟩,
      ofRows_eq_copyRows rows⟩,
    fun _ hfits => ⟨showsRows_toRows hfits.2.1, ofRows_toRows hfits⟩⟩

/-- Two rows without entries and with one, rows of which the third one is too short before one that
is too long, two rows of one length, and a matrix of two rows. -/
theorem ofRows_and_views_of_ragged :
    let x : BoundedInt .w32 := .one
    let a : DenseMatrix (BoundedInt .w32) := ⟨2, 1, .ofVector #v[x, x]⟩
    ofRows [[], [x]] = .error (.invalidDimension 2 0) ∧
      ofRows [[x, x], [x, x], [x], [x, x, x]] = .error (.raggedRows 2 2 1) ∧
      (∃ b, ofRows [[x, x], [x, x]] = .ok b ∧ b.shape = ⟨2, 2⟩ ∧ b.ShowsRows [[x, x], [x, x]] ∧
        ofList 2 2 [x, x, x, x] = .ok b) ∧
      a.ShowsRows a.toRows ∧ ofRows a.toRows = .ok a := by
  intro x a
  obtain ⟨hrows, hmatrix⟩ := ofRows_and_views (BoundedInt .w32)
  refine ⟨(hrows [[], [x]]).1.mpr (by decide), ?_, ?_, hmatrix a (by decide)⟩
  · exact ((hrows [[x, x], [x, x], [x], [x, x, x]]).2.1 (by decide)).1 [[x, x], [x, x]] [x]
      [[x, x, x]] rfl (by decide) (by decide)
  · exact ((hrows [[x, x], [x, x]]).2.1 (by decide)).2 (by decide)

end DenseMatrix

end MatrixReckoner
