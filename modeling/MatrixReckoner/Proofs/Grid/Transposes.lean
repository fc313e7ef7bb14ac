import MatrixReckoner.Proofs.Grid.Places

/-!
Transposition moves every entry to the exchanged position, and a second one moves it back.

* `Grid.columnsOf`: the columns of a row-major list, one behind the other, as two nested loops that
  look every entry up at its place.
* `Grid.columnsOf_toList`: they are the row-major list of the transpose, and no place is outside.
* `DenseMatrix.transpose_moves_entries`: the shape, the entries, the list and the transpose of the
  transpose.
-/

namespace MatrixReckoner

variable {α : Type}

namespace Grid

variable {m n : ℕ}

/-- The entries of a row-major list of `m` rows with `n` entries, column after column.  Each is
looked up at its place and put behind those found before; there is no answer if a place is outside
the list. -/
def columnsOf (data : List α) (m n : ℕ) : Option (List α) :=
  (List.finRange n).foldlM (fun found j =>
    (List.finRange m).foldlM (fun found i => do return found ++ [← data[i.val * n + j.val]?])
      found) []

/-- One pass of the outer loop finds one column. -/
lemma foldlM_column (g : Grid α m n) (j : Fin n) (found : List α) :
    (List.finRange m).foldlM (fun found i => do return found ++ [← g.toList[i.val * n + j.val]?])
      found = some (found ++ List.ofFn (g.transpose.entry j)) := by
  have hpass : ∀ i ∈ List.finRange m, ∀ found : List α,
      (do return found ++ [← g.toList[i.val * n + j.val]?]) =
        (some (found ++ [g.transpose.entry j i]) : Option (List α)) := by
    intro i _ found
    rw [getElem?_toList, entry_transpose]
    rfl
  rw [List.ofFn_eq_map, List.map_eq_flatMap]
  exact foldlM_found hpass found

/-- The columns of a grid are the rows of its transpose. -/
theorem columnsOf_toList (g : Grid α m n) : columnsOf g.toList m n = some g.transpose.toList := by
  rw [columnsOf, ← flatMap_finRange g.transpose]
  exact foldlM_found (fun j _ found => foldlM_column g j found) []

example : columnsOf [1, 2, 3, 4, 5, 6] 2 3 = some [1, 4, 2, 5, 3, 6] := by decide

end Grid

namespace DenseMatrix

/-- **Transposition exchanges rows and columns**, whatever the entries are.  The entry in row `i`
and column `j` moves to row `j` and column `i`, in the row-major list from the place `i * cols + j`
to the place `j * rows + i`.  Listing the columns one behind the other gives the list of the
transpose, and listing the columns of that one gives the first list again; the transpose of the
transpose is the matrix. -/
theorem transpose_moves_entries (a : DenseMatrix α) :
    a.transpose.shape = ⟨a.cols, a.rows⟩ ∧
    (∀ i < a.rows, ∀ j < a.cols, ∃ x,
      a.get i j = .ok x ∧ a.transpose.get j i = .ok x ∧
      a.toList[i * a.cols + j]? = some x ∧ a.transpose.toList[j * a.rows + i]? = some x) ∧
    Grid.columnsOf a.toList a.rows a.cols = some a.transpose.toList ∧
    Grid.columnsOf a.transpose.toList a.cols a.rows = some a.toList ∧
    a.transpose.transpose = a := by
  obtain ⟨m, n, g⟩ := a
  have htwice : g.transpose.transpose = g := g.transpose_transpose
  refine ⟨rfl, fun i hi j hj => ?_, g.columnsOf_toList, ?_, ?_⟩
  · have hentry := g.entry_transpose ⟨j, hj⟩ ⟨i, hi⟩
    refine ⟨g.entry ⟨i, hi⟩ ⟨j, hj⟩, get_mk g ⟨i, hi⟩ ⟨j, hj⟩, ?_,
      g.getElem?_toList ⟨i, hi⟩ ⟨j, hj⟩, ?_⟩
    · rw [← hentry]
      exact get_mk g.transpose ⟨j, hj⟩ ⟨i, hi⟩
    · rw [← hentry]
      exact g.transpose.getElem?_toList ⟨j, hj⟩ ⟨i, hi⟩
  · have hcolumns := g.transpose.columnsOf_toList
    rwa [htwice] at hcolumns
  · exact congrArg (DenseMatrix.mk m n) htwice

/-- The last entry of the first row of a matrix with two rows and three columns. -/
theorem transpose_moves_entries_of_two_rows :
    let a : DenseMatrix ℕ := ⟨2, 3, .ofVector #v[0, 1, 2, 3, 4, 5]⟩
    (0 < a.rows ∧ 2 < a.cols) ∧ a.transpose.toList = [0, 3, 1, 4, 2, 5] ∧
      ∃ x, a.get 0 2 = .ok x ∧ a.transpose.get 2 0 = .ok x ∧
        a.toList[2]? = some x ∧ a.transpose.toList[4]? = some x := by
  intro a
  obtain ⟨-, hentries, -⟩ := transpose_moves_entries a
  exact ⟨by decide, by decide +kernel, hentries 0 (by decide) 2 (by decide)⟩

end DenseMatrix

end MatrixReckoner
