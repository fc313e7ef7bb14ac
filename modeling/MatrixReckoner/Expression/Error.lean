import MatrixReckoner.DenseMatrix.Error
import MatrixReckoner.Character

/-!
Why an expression has no value.  Positions count characters from the start of the line.

* `ExpressionError`: the causes;
* `ExpressionError.message`: the texts that report them.
-/

namespace MatrixReckoner

/-- The cause for which an expression has no matrix as its value. -/
inductive ExpressionError where
  /-- An operation on matrices failed. -/
  | matrix (cause : MatrixError)
  /-- A row of a literal is not as long as the first; the position is that of the row's end. -/
  | raggedMatrix (row expected got position : Nat)
  /-- A literal is not closed on its line. -/
  | unterminatedMatrix (position : Nat)
  /-- A character begins no token. -/
  | unexpectedCharacter (ch : Char) (position : Nat)
  /-- An operand stands where an operator should. -/
  | missingOperator (position : Nat)
  /-- An operator, a closing parenthesis or the end stands where an operand should. -/
  | missingOperand (position : Nat)
  /-- A number has no digit. -/
  | missingScalar (position : Nat)
  /-- An identity matrix has no order, or one that is out of range. -/
  | missingOrder (position : Nat)
  /-- A parenthesis has no partner. -/
  | unmatchedParen (position : Nat)
  /-- A power of something that is not a matrix. -/
  | invalidPower (position : Nat)
  /-- A power without an exponent, or with one that is out of range. -/
  | invalidExponent (position : Nat)
  /-- A sum or difference of a matrix and a number. -/
  | incompatibleOperands (op : Operator)
  /-- An operator has fewer operands than two. -/
  | insufficientOperands
  /-- The value is a number. -/
  | scalarResult
  deriving DecidableEq, Repr

/-- The text that reports the error. -/
def ExpressionError.message : ExpressionError → String
  | matrix cause => cause.message
  | raggedMatrix row expected got position =>
    s!"ragged matrix literal at {position}: row {row} has {got} entries, expected {expected}"
  | unterminatedMatrix position => s!"matrix literal opened at {position} is never closed"
  | unexpectedCharacter ch position => s!"unexpected character {quoteChar ch} at {position}"
  | missingOperator position => s!"missing operator before position {position}"
  | missingOperand position => s!"missing operand at position {position}"
  | missingScalar position => s!"malformed number at position {position}"
  | missingOrder position => s!"identity matrix at {position} needs an order, e.g. E3"
  | unmatchedParen position => s!"unmatched parenthesis at {position}"
  | invalidPower position => s!"'^' at {position} must follow a matrix operand"
  | invalidExponent position => s!"'^' at {position} must be followed by an integer or 'T'"
  | incompatibleOperands op => s!"operator '{op.symbol}' cannot combine a matrix with a scalar"
  | insufficientOperands => "not enough operands for pending operator"
  | scalarResult => "expression evaluates to a scalar, expected a matrix"

end MatrixReckoner
