import MatrixReckoner.Element.Basic
import MatrixReckoner.Operator

/-!
Why an operation on matrices fails.

* `Shape`: the numbers of rows and columns;
* `MatrixError`, `MatrixError.message`: the answer of a checked operation that fails;
* `Abort`, `Abort.message`: the end of an unchecked one, where the caller vouched for the operands.
-/

namespace MatrixReckoner

/-- The numbers of rows and columns of a matrix. -/
structure Shape where
  rows : Nat
  cols : Nat
  deriving DecidableEq, Repr

/-- A shape is written as a pair. -/
def Shape.text (s : Shape) : String :=
  s!"({s.rows}, {s.cols})"

/-- The cause for which a checked operation fails. -/
inductive MatrixError where
  /-- A matrix with no rows, with no columns, or too large to store. -/
  | invalidDimension (rows cols : Nat)
  /-- Operands that should have one shape. -/
  | shapeMismatch (left right : Shape)
  /-- Factors that do not fit together. -/
  | incompatibleShape (left right : Shape)
  /-- An operation on square matrices alone. -/
  | notSquare (rows cols : Nat)
  /-- A determinant equal to zero. -/
  | singular
  /-- A position outside the matrix. -/
  | indexOutOfRange (row col rows cols : Nat)
  /-- A list that does not fill its shape. -/
  | dataLength (expected got : Nat)
  /-- A row whose length is not that of the first row. -/
  | raggedRows (row expected got : Nat)
  /-- An arithmetic operation whose result is out of range. -/
  | overflow (operation : Overflow)
  deriving DecidableEq, Repr

namespace MatrixError

/-- The text that reports the error. -/
def message : MatrixError → String
  | invalidDimension rows cols => s!"invalid dimension {rows}x{cols}: both must be at least 1"
  | shapeMismatch left right => s!"shape mismatch: {left.text} vs {right.text}"
  | incompatibleShape left right =>
    s!"incompatible shapes for multiplication: {left.text} * {right.text}"
  | notSquare rows cols => s!"matrix is {rows}x{cols}, expected a square matrix"
  | singular => "matrix is singular"
  | indexOutOfRange row col rows cols =>
    s!"index ({row}, {col}) out of range for {rows}x{cols} matrix"
  | dataLength expected got => s!"expected {expected} elements, got {got}"
  | raggedRows row expected got => s!"row {row} has {got} elements, expected {expected}"
  | overflow operation => operation.message

/-- An answer of element arithmetic as an answer of a matrix operation. -/
def ofArithmetic {β : Type} (answer : Except Overflow β) : Except MatrixError β :=
  answer.mapError overflow

@[simp] theorem ofArithmetic_eq_ok_iff {β : Type} {answer : Except Overflow β} {b : β} :
    ofArithmetic answer = .ok b ↔ answer = .ok b :=
  mapError_eq_ok_iff

@[simp] theorem ofArithmetic_eq_error_iff {β : Type} {answer : Except Overflow β}
    {e : MatrixError} : ofArithmetic answer = .error e ↔ ∃ o, answer = .error o ∧ e = overflow o :=
  mapError_eq_error_iff.trans (exists_congr fun _ => and_congr_right fun _ => eq_comm)

end MatrixError

/-- What ends an operation whose operands are not checked beforehand. -/
inductive Abort where
  /-- An operator on matrices that it cannot join. -/
  | operands (op : Operator) (cause : MatrixError)
  /-- A position outside the matrix. -/
  | position (row col rows cols : Nat)
  /-- A place beyond the end of the row-major store. -/
  | place (length index : Nat)
  /-- An arithmetic operation whose result is out of range. -/
  | overflow (operation : Overflow)
  deriving DecidableEq, Repr

/-- The text that reports the end. -/
def Abort.message : Abort → String
  | operands op cause => s!"{op.word} failed: {cause.message}"
  | position row col rows cols => (MatrixError.indexOutOfRange row col rows cols).message
  | place length index => s!"index out of bounds: the len is {length} but the index is {index}"
  | overflow operation => operation.message

end MatrixReckoner
