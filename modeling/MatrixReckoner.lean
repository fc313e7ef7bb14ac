import MatrixReckoner.Element.Basic
import MatrixReckoner.Element.BoundedInt
import MatrixReckoner.Element.Floating
import MatrixReckoner.Grid.Basic
import MatrixReckoner.Grid.Blocks
import MatrixReckoner.Grid.Algebra
import MatrixReckoner.Operator
import MatrixReckoner.DenseMatrix.Error
import MatrixReckoner.DenseMatrix.Basic
import MatrixReckoner.DenseMatrix.Structure
import MatrixReckoner.DenseMatrix.Algebra
import MatrixReckoner.Number.Decimal
import MatrixReckoner.Element.Functions
import MatrixReckoner.Session.Call
import MatrixReckoner.Session.Run
import MatrixReckoner.Character
import MatrixReckoner.Expression.Error
import MatrixReckoner.Expression.Stacks
import MatrixReckoner.Expression.Cursor
import MatrixReckoner.Expression.Literal
import MatrixReckoner.Expression.Machine
import MatrixReckoner.Expression.Reader
import MatrixReckoner.CommandLine.Options
import MatrixReckoner.CommandLine.Input
import MatrixReckoner.CommandLine.Run
import MatrixReckoner.Main
import MatrixReckoner.Proofs.Expression.Tree
import MatrixReckoner.Proofs.Expression.Scanning
import MatrixReckoner.Proofs.Expression.Evaluation
import MatrixReckoner.Proofs.Expression.Acceptance
import MatrixReckoner.Proofs.Arithmetic.Exact
import MatrixReckoner.Proofs.Arithmetic.Product
import MatrixReckoner.Proofs.Arithmetic.Strassen
import MatrixReckoner.Proofs.Arithmetic.Quarters
import MatrixReckoner.Proofs.Arithmetic.Multiply
import MatrixReckoner.Proofs.Arithmetic.Failures
import MatrixReckoner.Proofs.Arithmetic.Minors
import MatrixReckoner.Proofs.Arithmetic.Expansion
import MatrixReckoner.Proofs.Arithmetic.Unfailing
import MatrixReckoner.Proofs.Arithmetic.Determinant
import MatrixReckoner.Proofs.Arithmetic.Adjugate
import MatrixReckoner.Expression.Scan
import MatrixReckoner.Proofs.Expression.Lines
import MatrixReckoner.Proofs.Expression.LineEndings
import MatrixReckoner.Proofs.Expression.Balance
import MatrixReckoner.Proofs.Expression.Nesting
import MatrixReckoner.Proofs.Expression.Causes
import MatrixReckoner.Proofs.Arithmetic.Values
import MatrixReckoner.Proofs.Arithmetic.Inverse
import MatrixReckoner.Proofs.Arithmetic.Power
import MatrixReckoner.Proofs.Arithmetic.Magnitude
import MatrixReckoner.Proofs.Arithmetic.EntryBounds
import MatrixReckoner.Proofs.Arithmetic.Analytic
import MatrixReckoner.Proofs.Arithmetic.RingLaws
import MatrixReckoner.Proofs.Arithmetic.EntrySums
import MatrixReckoner.Proofs.Arithmetic.Transposition
import MatrixReckoner.Proofs.Floating.Canonical
import MatrixReckoner.Proofs.Floating.Rounding
import MatrixReckoner.Proofs.Floating.Exactness
import MatrixReckoner.Proofs.Floating.Product
import MatrixReckoner.Proofs.Floating.Identity
import MatrixReckoner.Proofs.Floating.Words
import MatrixReckoner.Proofs.Grid.Rows
import MatrixReckoner.Proofs.Session.Shape
import MatrixReckoner.Proofs.Session.WellFormed
import MatrixReckoner.Proofs.Number.Rounding
import MatrixReckoner.Proofs.Number.Nearest
import MatrixReckoner.Proofs.Number.FixedText
import MatrixReckoner.Proofs.Expression.ReadBack
import MatrixReckoner.Proofs.CommandLine.TextInput
import MatrixReckoner.Proofs.CommandLine.Arguments
import MatrixReckoner.Proofs.CommandLine.KeepGoing
import MatrixReckoner.Proofs.Expression.Eager
import MatrixReckoner.Proofs.Expression.Layout
import MatrixReckoner.Proofs.Arithmetic.Splitting
import MatrixReckoner.Proofs.Grid.Places
import MatrixReckoner.Proofs.Grid.RowViews
import MatrixReckoner.Proofs.Grid.Transposes
import MatrixReckoner.Proofs.Grid.Deletions
import MatrixReckoner.Proofs.Grid.Capacity
import MatrixReckoner.Proofs.Arithmetic.StoredProduct
import MatrixReckoner.Proofs.Grid.Access
import MatrixReckoner.Proofs.Floating.SignedZero
import MatrixReckoner.Proofs.Floating.ZeroCofactors
import MatrixReckoner.Proofs.Expression.Shallow
import MatrixReckoner.Proofs.Expression.LongestMatch
