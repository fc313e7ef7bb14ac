import MatrixReckoner.DenseMatrix.Error
import MatrixReckoner.Grid.Algebra

/-!
Matrices whose shape is data.  The constructors refuse a shape without entries or too large to
store; reading and writing refuse a position outside the matrix.

* `DenseMatrix`: a shape and the grid of that shape;
* `Shape.Fits`, `DenseMatrix.checkShape`: the shapes that can be built;
* `DenseMatrix.ofList`, `DenseMatrix.ofRows`, `DenseMatrix.full`, `DenseMatrix.identity`:
  constructors;
* `DenseMatrix.get`, `DenseMatrix.set`, `DenseMatrix.update`, `DenseMatrix.store`: access;
* `DenseMatrix.mapM`, `DenseMatrix.zipM`, `DenseMatrix.isEqual`: operations entry by entry.
-/

namespace MatrixReckoner

/-- A matrix: its shape and the grid of its entries. -/
structure DenseMatrix (α : Type) where
  rows : Nat
  cols : Nat
  cells : Grid α rows cols
  deriving DecidableEq

/-- The greatest size of a row-major store in bytes. -/
def maxStore : Nat := Nat.pow 2 63 - 1

/-- A matrix of this shape with entries of so many bytes has entries, and its store is not too
large. -/
def Shape.Fits (bytes : Nat) (s : Shape) : Prop :=
  1 ≤ s.rows ∧ 1 ≤ s.cols ∧ s.rows * s.cols * bytes ≤ maxStore

instance (bytes : Nat) (s : Shape) : Decidable (s.Fits bytes) :=
  inferInstanceAs (Decidable (_ ∧ _))

namespace DenseMatrix

variable {α : Type}

open MatrixError (ofArithmetic)

/-! ### Shapes -/

/-- The numbers of rows and columns. -/
def shape (a : DenseMatrix α) : Shape :=
  ⟨a.rows, a.cols⟩

/-- The number of entries. -/
def numel (a : DenseMatrix α) : Nat :=
  a.rows * a.cols

/-- Whether there are as many rows as columns. -/
def isSquare (a : DenseMatrix α) : Bool :=
  a.rows = a.cols

/-- Accepts the shapes that a matrix over `α` can have. -/
def checkShape (α : Type) [Element α] (rows cols : Nat) : Except MatrixError Unit :=
  if Shape.Fits (Element.bytes α) ⟨rows, cols⟩ then .ok () else .error (.invalidDimension rows cols)

/-! ### Constructors -/

/-- The matrix of a given shape whose entries are listed row after row. -/
def ofList [Element α] (rows cols : Nat) (data : List α) : Except MatrixError (DenseMatrix α) := do
  checkShape α rows cols
  if h : data.length = rows * cols then
    return ⟨rows, cols, .ofVector ⟨data.toArray, by simpa using h⟩⟩
  else
    throw (.dataLength (rows * cols) data.length)

/-- The matrix with given rows.  The first row sets the length of all; the shape is checked before
the other rows are compared with it. -/
def ofRows [Element α] (rows : List (List α)) : Except MatrixError (DenseMatrix α) := do
  let cols := (rows.head?.map List.length).getD 0
  checkShape α rows.length cols
  if h : ∀ r ∈ rows, r.length = cols then
    return ⟨rows.length, cols, .ofRows rows h⟩
  else
    let ragged := rows.findIdx fun r => r.length != cols
    throw (.raggedRows ragged cols (rows.getD ragged []).length)

/-- The matrix with one value everywhere. -/
def full [Element α] (rows cols : Nat) (x : α) : Except MatrixError (DenseMatrix α) := do
  checkShape α rows cols
  return ⟨rows, cols, .replicate rows cols x⟩

/-- The matrix of zeros. -/
def zeros [Element α] (rows cols : Nat) : Except MatrixError (DenseMatrix α) :=
  full rows cols Element.zero

/-- The identity matrix. -/
def identity [Element α] (n : Nat) : Except MatrixError (DenseMatrix α) := do
  checkShape α n n
  return ⟨n, n, .identity n⟩

/-- Unless said otherwise a matrix is the zero matrix of order three. -/
instance [Element α] : Inhabited (DenseMatrix α) :=
  ⟨⟨3, 3, .replicate 3 3 Element.zero⟩⟩

/-! ### Access -/

/-- The rows from top to bottom. -/
def toRows (a : DenseMatrix α) : List (List α) :=
  a.cells.toRows

/-- The entries row after row. -/
def toList (a : DenseMatrix α) : List α :=
  a.cells.toList

/-- The row at `r`, if there is one. -/
def row? (a : DenseMatrix α) (r : Nat) : Option (List α) :=
  if h : r < a.rows then some (a.cells.row ⟨r, h⟩).toList else none

/-- The entry at a position. -/
def get (a : DenseMatrix α) (row col : Nat) : Except MatrixError α :=
  if h : row < a.rows ∧ col < a.cols then
    .ok (a.cells.entry ⟨row, h.1⟩ ⟨col, h.2⟩)
  else
    .error (.indexOutOfRange row col a.rows a.cols)

/-- The matrix with the entry at one position replaced. -/
def set (a : DenseMatrix α) (row col : Nat) (x : α) : Except MatrixError (DenseMatrix α) :=
  if h : row < a.rows ∧ col < a.cols then
    .ok { a with cells := a.cells.set ⟨row, h.1⟩ ⟨col, h.2⟩ x }
  else
    .error (.indexOutOfRange row col a.rows a.cols)

/-- The matrix with the entry at one position replaced by a computed one. -/
def update (a : DenseMatrix α) (row col : Nat) (f : α → Except Overflow α) :
    Except MatrixError (DenseMatrix α) := do
  let x ← a.get row col
  a.set row col (← ofArithmetic (f x))

/-- The matrix with the entry at one place of the row-major list replaced, if there is such a
place. -/
def store? (a : DenseMatrix α) (place : Nat) (x : α) : Option (DenseMatrix α) :=
  if h : place < a.rows * a.cols then
    have colsPos : 0 < a.cols := Nat.pos_of_ne_zero fun h₀ => by simp [h₀] at h
    some { a with
      cells := a.cells.set ⟨place / a.cols, (Nat.div_lt_iff_lt_mul colsPos).2 h⟩
        ⟨place % a.cols, Nat.mod_lt _ colsPos⟩ x }
  else
    none

/-! ### Entry by entry -/

/-- The matrix of computed images of the entries. -/
def mapM (f : α → Except Overflow α) (a : DenseMatrix α) : Except MatrixError (DenseMatrix α) := do
  return { a with cells := ← ofArithmetic (a.cells.mapM f) }

/-- The matrix of computed combinations of the entries of two matrices of one shape. -/
def zipM (f : α → α → Except Overflow α) (a b : DenseMatrix α) :
    Except MatrixError (DenseMatrix α) :=
  if h : a.rows = b.rows ∧ a.cols = b.cols then do
    return { a with cells := ← ofArithmetic (a.cells.zipM f (b.cells.cast h.1.symm h.2.symm)) }
  else
    .error (.shapeMismatch a.shape b.shape)

/-- Whether two matrices have one shape and equal entries. -/
def isEqual [Element α] (a b : DenseMatrix α) : Bool :=
  a.shape = b.shape && a.toList == b.toList

/-- Whether two matrices have one shape and the difference of any two entries at one position is
less than `tolerance`. -/
def isClose [Analytic α] (a b : DenseMatrix α) (tolerance : α) : Except Overflow Bool :=
  if a.shape = b.shape then
    (a.toList.zip b.toList).allM fun (x, y) => do
      return Element.lt (Analytic.abs (← Element.sub x y)) tolerance
  else
    .ok false

end DenseMatrix

end MatrixReckoner
