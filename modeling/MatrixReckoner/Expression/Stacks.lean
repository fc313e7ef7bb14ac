import MatrixReckoner.DenseMatrix.Algebra
import MatrixReckoner.Element.Floating
import MatrixReckoner.Expression.Error

/-!
The two stacks on which an expression is evaluated while it is read: the values of complete
operands, and the operators and open parentheses that wait for the end of their right operand.

* `Operand`: a matrix or a number;
* `Operator.combine`: the value of an operator between two operands;
* `Pending`: what waits;
* `Stacks.reduce`: the topmost operator replaces its two operands by their value;
* `Stacks.pushOperator`, `Stacks.closeGroup`, `Stacks.finish`: an operator, a closing parenthesis
  and the end of the line make those reduce that bind at least as tightly.
-/

namespace MatrixReckoner

/-! ### Operands -/

/-- A value within an expression. -/
inductive Operand where
  | matrix (a : DenseMatrix Float)
  | scalar (x : Float)
  deriving DecidableEq

namespace Operator

/-- The operator between two numbers. -/
def onScalars : Operator → Float → Float → Float
  | add, x, y => x + y
  | sub, x, y => x - y
  | mul, x, y => x * y

/-- The operator between two operands: any operator joins two matrices or two numbers, and only
multiplication joins a matrix and a number, in either order. -/
def combine (op : Operator) : Operand → Operand → Except ExpressionError Operand
  | .matrix a, .matrix b => (op.apply a b).mapError .matrix |>.map .matrix
  | .matrix a, .scalar x => scaled op a x
  | .scalar x, .matrix a => scaled op a x
  | .scalar x, .scalar y => .ok (.scalar (op.onScalars x y))
where
  /-- The operator between a matrix and a number. -/
  scaled (op : Operator) (a : DenseMatrix Float) (x : Float) : Except ExpressionError Operand :=
    if op = mul then (a.scale x).mapError .matrix |>.map .matrix
    else .error (.incompatibleOperands op)

end Operator

/-! ### Stacks -/

/-- An entry that waits for the operand to its right. -/
inductive Pending where
  | openParen (position : Nat)
  | operator (op : Operator)
  deriving DecidableEq, Repr

/-- The operands and the waiting entries, the topmost first. -/
structure Stacks where
  operands : List Operand
  pending : List Pending

namespace Stacks

/-- Nothing read. -/
def empty : Stacks :=
  ⟨[], []⟩

/-- Another operand on top. -/
def pushOperand (s : Stacks) (x : Operand) : Stacks :=
  { s with operands := x :: s.operands }

/-- Another open parenthesis on top. -/
def openGroup (s : Stacks) (position : Nat) : Stacks :=
  { s with pending := .openParen position :: s.pending }

/-- The operands with the two topmost joined by an operator. -/
def reduce (op : Operator) : List Operand → Except ExpressionError (List Operand)
  | right :: left :: below => return (← op.combine left right) :: below
  | _ => .error .insufficientOperands

/-- Applies the waiting operators from the top down to an open parenthesis or to one that binds less
tightly than `priority`. -/
def reduceWhile (priority : Nat) (operands : List Operand) :
    List Pending → Except ExpressionError Stacks
  | .operator top :: pending =>
    if top.priority < priority then
      .ok ⟨operands, .operator top :: pending⟩
    else do
      reduceWhile priority (← reduce top operands) pending
  | pending => .ok ⟨operands, pending⟩

/-- Another operator on top, behind its left operand. -/
def pushOperator (s : Stacks) (op : Operator) : Except ExpressionError Stacks := do
  let s ← reduceWhile op.priority s.operands s.pending
  return { s with pending := .operator op :: s.pending }

/-- Applies the operators above the topmost open parenthesis and removes that; `position` is that of
the closing one. -/
def reduceGroup (position : Nat) (operands : List Operand) :
    List Pending → Except ExpressionError Stacks
  | .operator op :: pending => do reduceGroup position (← reduce op operands) pending
  | .openParen _ :: pending => .ok ⟨operands, pending⟩
  | [] => .error (.unmatchedParen position)

/-- The group that a closing parenthesis ends. -/
def closeGroup (s : Stacks) (position : Nat) : Except ExpressionError Stacks :=
  reduceGroup position s.operands s.pending

/-- Applies all waiting operators; the last operand has to be a matrix. -/
def reduceAll (operands : List Operand) : List Pending → Except ExpressionError (DenseMatrix Float)
  | .operator op :: pending => do reduceAll (← reduce op operands) pending
  | .openParen position :: _ => .error (.unmatchedParen position)
  | [] =>
    match operands with
    | [.matrix a] => .ok a
    | [.scalar _] => .error .scalarResult
    | _ => .error .insufficientOperands

/-- The value at the end of the line. -/
def finish (s : Stacks) : Except ExpressionError (DenseMatrix Float) :=
  reduceAll s.operands s.pending

end Stacks

end MatrixReckoner
