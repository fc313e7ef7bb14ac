import MatrixReckoner.DenseMatrix.Structure

/-!
Arithmetic and linear algebra on matrices of any shape.  Sums, multiples and classical products
check the shapes of their operands and hand their grids to the operation on grids.  The recursive
operations are made of checked operations on matrices: Strassen's product goes on with quarters,
determinants with minors, and powers with products.

* `DenseMatrix.add`, `DenseMatrix.sub`, `DenseMatrix.scale`, `DenseMatrix.neg`;
* `DenseMatrix.product`, `DenseMatrix.strassen`, `DenseMatrix.multiply`: the classical product,
  Strassen's (by `DenseMatrix.strassenSteps`), and the choice between them
  (`DenseMatrix.usesStrassen`);
* `DenseMatrix.power` (by `DenseMatrix.powerSteps`), `DenseMatrix.integerPower`: powers with natural
  and with integer exponents;
* `DenseMatrix.determinant` (by `DenseMatrix.expansion`), `DenseMatrix.isRegular`,
  `DenseMatrix.adjugate` (by `DenseMatrix.cofactor`), `DenseMatrix.inverse`;
* `Operator.apply`, `Operator.applyUnchecked`: an operator on two matrices.
-/

namespace MatrixReckoner

variable {α : Type}

namespace DenseMatrix

open MatrixError (ofArithmetic)

variable [Element α]

/-! ### Sums and multiples -/

/-- The sum of two matrices of one shape. -/
def add (a b : DenseMatrix α) : Except MatrixError (DenseMatrix α) :=
  zipM Element.add a b

/-- The difference of two matrices of one shape. -/
def sub (a b : DenseMatrix α) : Except MatrixError (DenseMatrix α) :=
  zipM Element.sub a b

/-- Every entry times `s`. -/
def scale (a : DenseMatrix α) (s : α) : Except MatrixError (DenseMatrix α) :=
  a.mapM (Element.mul · s)

/-- The opposite of every entry. -/
def neg (a : DenseMatrix α) : Except MatrixError (DenseMatrix α) :=
  a.mapM Element.neg

/-! ### Products -/

/-- The classical product, of whatever shape; `Word.product` also asks for the store of the
result. -/
def product (a b : DenseMatrix α) : Except MatrixError (DenseMatrix α) :=
  if h : a.cols = b.rows then do
    return ⟨a.rows, b.cols, ← ofArithmetic (a.cells.product (b.cells.cast h.symm rfl))⟩
  else
    .error (.incompatibleShape a.shape b.shape)

/-- Strassen's product of two matrices of order `2 ^ e`.  The half-size products are those of
`Grid.strassen`, in the same order; every quarter, sum, difference and join checks the shapes of its
operands. -/
def strassenSteps : Nat → DenseMatrix α → DenseMatrix α → Except MatrixError (DenseMatrix α)
  | 0, x, y => do x.scale (← y.get 0 0)
  | k + 1, x, y => do
    let ⟨a, b, c, d⟩ ← x.quadrants
    let ⟨e, f, g, h⟩ ← y.quadrants
    let p₁ ← strassenSteps k a (← f.sub h)
    let p₂ ← strassenSteps k (← a.add b) h
    let p₃ ← strassenSteps k (← c.add d) e
    let p₄ ← strassenSteps k d (← g.sub e)
    let p₅ ← strassenSteps k (← a.add d) (← e.add h)
    let p₆ ← strassenSteps k (← b.sub d) (← g.add h)
    let p₇ ← strassenSteps k (← a.sub c) (← e.add f)
    let topLeft ← (← (← p₅.add p₄).sub p₂).add p₆
    let topRight ← p₁.add p₂
    let bottomLeft ← p₃.add p₄
    let bottomRight ← (← (← p₁.add p₅).sub p₃).sub p₇
    Blocks.join ⟨topLeft, topRight, bottomLeft, bottomRight⟩

/-- Strassen's product of two square matrices whose order is a power of two. -/
def strassen (a b : DenseMatrix α) : Except MatrixError (DenseMatrix α) :=
  if a.rows ≠ a.cols then
    .error (.notSquare a.rows a.cols)
  else if b.shape ≠ a.shape then
    .error (.incompatibleShape a.shape b.shape)
  else if Grid.IsSide a.rows then
    strassenSteps a.rows.log2 a b
  else
    .error (.invalidDimension a.rows a.rows)

/-- Whether the product of two matrices is computed by `strassen`: both are square, of one order,
and this is a power of two, at least two. -/
def usesStrassen (a b : DenseMatrix α) : Bool :=
  a.isSquare && b.shape = a.shape && decide (2 ≤ a.rows ∧ Grid.IsSide a.rows)

/-- The product of two matrices, by the method that `usesStrassen` names. -/
def multiply (a b : DenseMatrix α) : Except MatrixError (DenseMatrix α) :=
  if usesStrassen a b then strassen a b else product a b

/-! ### Powers -/

/-- The power with an exponent `k ≥ 1` by repeated squaring: the square of the power with half the
exponent, times the matrix once more when the exponent is odd. -/
def powerSteps (a : DenseMatrix α) (k : Nat) : Except MatrixError (DenseMatrix α) :=
  if k ≤ 1 then
    .ok a
  else do
    let half ← powerSteps a (k / 2)
    let square ← half.multiply half
    if k % 2 = 0 then
      return square
    else
      square.multiply a
termination_by k
decreasing_by omega

/-- The power of a square matrix with a natural exponent, the identity for zero. -/
def power (a : DenseMatrix α) (k : Nat) : Except MatrixError (DenseMatrix α) :=
  if a.rows ≠ a.cols then
    .error (.notSquare a.rows a.cols)
  else if k = 0 then
    .ok ⟨a.rows, a.rows, .identity a.rows⟩
  else
    powerSteps a k

/-! ### Determinants and adjugates -/

/-- The determinant of a square matrix of a given order.  Orders up to two have a formula of their
own; a larger matrix is expanded along its first row, with the sign of a term applied before it is
added. -/
def expansion : Nat → DenseMatrix α → Except MatrixError α
  | 0, _ => .ok Element.one
  | 1, a => a.get 0 0
  | 2, a => do
    let falling ← ofArithmetic (Element.mul (← a.get 0 0) (← a.get 1 1))
    let rising ← ofArithmetic (Element.mul (← a.get 0 1) (← a.get 1 0))
    ofArithmetic (Element.sub falling rising)
  | n + 3, a =>
    (List.finRange (n + 3)).foldlM
      (fun sum (j : Fin (n + 3)) => do
        let entry ← a.get 0 j
        let minor ← expansion (n + 2) (← a.submatrix 0 j)
        let term ← ofArithmetic (Element.mul entry minor)
        let signed ← ofArithmetic (if j.val % 2 = 0 then .ok term else Element.neg term)
        ofArithmetic (Element.add sum signed))
      Element.zero

/-- The determinant of a square matrix. -/
def determinant (a : DenseMatrix α) : Except MatrixError α :=
  if a.rows = a.cols then expansion a.rows a else .error (.notSquare a.rows a.cols)

/-- Whether the determinant of a square matrix differs from zero. -/
def isRegular (a : DenseMatrix α) : Except MatrixError Bool := do
  return !((← a.determinant) == Element.zero)

/-- The determinant of a matrix without row `i` and column `j`, with the sign of the position.  A
determinant with a negative sign is subtracted from zero, so that zero stays the zero of
additions. -/
def cofactor (a : DenseMatrix α) (i j : Nat) : Except MatrixError α := do
  let minor ← expansion (a.rows - 1) (← a.submatrix i j)
  ofArithmetic (if (i + j) % 2 = 0 then .ok minor else Element.sub Element.zero minor)

/-- The transposed matrix of the cofactors of a square matrix, which are computed row after row.
A matrix of order one has no minors; its adjugate is the identity. -/
def adjugate (a : DenseMatrix α) : Except MatrixError (DenseMatrix α) :=
  if a.rows ≠ a.cols then
    .error (.notSquare a.rows a.cols)
  else if a.rows = 1 then
    .ok ⟨1, 1, .identity 1⟩
  else do
    let cofactors ← Grid.tabulate fun i j : Fin a.rows => a.cofactor i j
    return ⟨a.rows, a.rows, cofactors.transpose⟩

end DenseMatrix

/-! ### Inverses -/

namespace DenseMatrix

variable [Analytic α]

/-- The inverse of a square matrix whose determinant is not zero: the adjugate times the reciprocal
of the determinant.  Adding zero to each entry turns a negative zero into the zero of additions. -/
def inverse (a : DenseMatrix α) : Except MatrixError (DenseMatrix α) := do
  let det ← a.determinant
  if det == Element.zero then
    throw .singular
  else
    let factor := Analytic.recip det
    (← a.adjugate).mapM fun x => do Element.add (← Element.mul x factor) Element.zero

/-- The power of a square matrix with an integer exponent: below zero, the power of the inverse with
the opposite exponent. -/
def integerPower (a : DenseMatrix α) (k : Int) : Except MatrixError (DenseMatrix α) :=
  if k < 0 then do (← a.inverse).power k.natAbs else a.power k.natAbs

end DenseMatrix

/-! ### Operators -/

namespace Operator

variable [Element α]

/-- The operator on two matrices. -/
def apply : Operator → DenseMatrix α → DenseMatrix α → Except MatrixError (DenseMatrix α)
  | add => DenseMatrix.add
  | sub => DenseMatrix.sub
  | mul => DenseMatrix.multiply

/-- The operator on two matrices whose shapes the caller vouches for. -/
def applyUnchecked (op : Operator) (a b : DenseMatrix α) : Except Abort (DenseMatrix α) :=
  match op.apply a b with
  | .ok c => .ok c
  | .error (.overflow operation) => .error (.overflow operation)
  | .error cause => .error (.operands op cause)

end Operator

end MatrixReckoner
