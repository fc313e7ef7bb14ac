import MatrixReckoner.DenseMatrix.Basic
import MatrixReckoner.Number.Decimal

/-!
Matrices taken apart, put together and written.

* `DenseMatrix.transpose`: rows and columns exchanged;
* `DenseMatrix.submatrix`: a matrix without one row and one column;
* `DenseMatrix.quadrants`, `Blocks.join`: the quarters of a square matrix of even order;
* `DenseMatrix.lines`, `DenseMatrix.text`: the text, with a line for each row, a blank between
  entries, and a fixed number of places for every entry, `DenseMatrix.defaultPlaces` unless others
  are asked for.
-/

namespace MatrixReckoner

/-- Four matrices arranged in two rows. -/
structure Blocks (α : Type) where
  topLeft : DenseMatrix α
  topRight : DenseMatrix α
  bottomLeft : DenseMatrix α
  bottomRight : DenseMatrix α
  deriving DecidableEq

variable {α : Type}

namespace DenseMatrix

/-- The matrix with rows and columns exchanged. -/
def transpose (a : DenseMatrix α) : DenseMatrix α :=
  ⟨a.cols, a.rows, a.cells.transpose⟩

/-- The matrix without one row and one column.  The position is checked before the shape of what is
left. -/
def submatrix [Element α] (a : DenseMatrix α) (row col : Nat) :
    Except MatrixError (DenseMatrix α) :=
  match a with
  | ⟨m + 1, n + 1, cells⟩ =>
    if h : row < m + 1 ∧ col < n + 1 then do
      checkShape α m n
      return ⟨m, n, cells.minor ⟨row, h.1⟩ ⟨col, h.2⟩⟩
    else
      .error (.indexOutOfRange row col (m + 1) (n + 1))
  | ⟨rows, cols, _⟩ => .error (.indexOutOfRange row col rows cols)

/-- The grid of a square matrix. -/
def squareCells (a : DenseMatrix α) : Except MatrixError (Grid α a.rows a.rows) :=
  if h : a.rows = a.cols then .ok (a.cells.cast rfl h.symm)
  else .error (.notSquare a.rows a.cols)

/-- The four quarters of a square matrix of even order. -/
def quadrants (a : DenseMatrix α) : Except MatrixError (Blocks α) := do
  let cells ← a.squareCells
  if h : a.rows = a.rows / 2 + a.rows / 2 then
    let q := (cells.cast h h).quadrants
    return ⟨⟨_, _, q.topLeft⟩, ⟨_, _, q.topRight⟩, ⟨_, _, q.bottomLeft⟩, ⟨_, _, q.bottomRight⟩⟩
  else
    throw (.invalidDimension a.rows a.rows)

/-- The grid of a matrix that has to be square of order `h`. -/
def cellsOfOrder (h : Nat) (a : DenseMatrix α) : Except MatrixError (Grid α h h) :=
  if e : a.rows = h ∧ a.cols = h then .ok (a.cells.cast e.1 e.2)
  else .error (.shapeMismatch ⟨h, h⟩ a.shape)

end DenseMatrix

namespace Blocks

/-- The blocks row after row. -/
def toList (q : Blocks α) : List (DenseMatrix α) :=
  [q.topLeft, q.topRight, q.bottomLeft, q.bottomRight]

/-- The matrix that four square blocks make up.  The rows of the first block set the order of
all. -/
def join (q : Blocks α) : Except MatrixError (DenseMatrix α) := do
  let h := q.topLeft.rows
  let topLeft ← q.topLeft.cellsOfOrder h
  let topRight ← q.topRight.cellsOfOrder h
  let bottomLeft ← q.bottomLeft.cellsOfOrder h
  let bottomRight ← q.bottomRight.cellsOfOrder h
  return ⟨h + h, h + h, Quadrants.join ⟨topLeft, topRight, bottomLeft, bottomRight⟩⟩

end Blocks

namespace DenseMatrix

/-! ### Text -/

variable [Printable α]

/-- The places of an entry unless others are asked for. -/
def defaultPlaces : Nat := 5

/-- The text of every row. -/
def lines (places : Nat) (a : DenseMatrix α) : List (List Char) :=
  a.toRows.map fun row => [' '].intercalate (row.map fun x => (Printable.value x).text places)

/-- The rows from top to bottom, one a line. -/
def text (places : Nat) (a : DenseMatrix α) : List Char :=
  ['\n'].intercalate (a.lines places)

end DenseMatrix

end MatrixReckoner
