import MatrixReckoner.DenseMatrix.Algebra

/-!
Calls on matrices that are written out or kept under a name.

* `Store`: the matrices kept under names;
* `Source`, `Store.matrix`: an operand and the matrix it stands for;
* `Failure`: why a call has no answer;
* `Call`, `Answer`, `Call.answer`: the operations on matrices over any elements.
-/

namespace MatrixReckoner

variable {α β : Type}

/-! ### Stores and operands -/

/-- The matrices kept under names; the first entry of a name counts. -/
structure Store (α : Type) where
  entries : List (String × DenseMatrix α)

namespace Store

/-- The store that keeps nothing. -/
def empty : Store α := ⟨[]⟩

/-- The matrix kept under a name. -/
def find? (s : Store α) (name : String) : Option (DenseMatrix α) :=
  s.entries.lookup name

/-- The store with a matrix under a name, in place of the one that was there. -/
def put (s : Store α) (name : String) (a : DenseMatrix α) : Store α :=
  ⟨(name, a) :: s.entries.filter (·.1 != name)⟩

end Store

/-- An operand: a matrix written out, or the name of one. -/
inductive Source (α : Type) where
  /-- The rows. -/
  | rows (rows : List (List α))
  /-- The shape and the entries row after row. -/
  | list (rows cols : Nat) (data : List α)
  /-- The name of a kept matrix. -/
  | named (name : String)

/-- Why a call has no answer. -/
inductive Failure where
  /-- The operation refused its operands. -/
  | refused (cause : MatrixError)
  /-- The operation was ended. -/
  | aborted (cause : Abort)
  /-- No matrix is kept under a name. -/
  | unknownName (name : String)
  deriving DecidableEq, Repr

namespace Failure

/-- An answer of a checked operation.  An overflow ends the call. -/
def ofChecked : Except MatrixError β → Except Failure β
  | .ok b => .ok b
  | .error (.overflow operation) => .error (.aborted (.overflow operation))
  | .error cause => .error (.refused cause)

/-- An answer of an unchecked operation. -/
def ofUnchecked (answer : Except Abort β) : Except Failure β :=
  answer.mapError aborted

end Failure

/-- The matrix that an operand stands for. -/
def Store.matrix [Element α] (s : Store α) : Source α → Except Failure (DenseMatrix α)
  | .rows rows => Failure.ofChecked (DenseMatrix.ofRows rows)
  | .list rows cols data => Failure.ofChecked (DenseMatrix.ofList rows cols data)
  | .named name =>
    match s.find? name with
    | some a => .ok a
    | none => .error (.unknownName name)

/-! ### Calls -/

/-- An operation on matrices with its operands. -/
inductive Call (α : Type) where
  -- constructors
  | value (a : Source α)
  | zeros (rows cols : Nat)
  | full (rows cols : Nat) (x : α)
  | identity (n : Nat)
  | standard
  -- reading
  | describe (a : Source α)
  | row (a : Source α) (r : Nat)
  | rows (a : Source α)
  | entries (a : Source α)
  | get (a : Source α) (row col : Nat)
  | index (a : Source α) (row col : Nat)
  -- writing
  | set (a : Source α) (row col : Nat) (x : α)
  | assign (a : Source α) (row col : Nat) (x : α)
  | increase (a : Source α) (row col : Nat) (x : α)
  | store (a : Source α) (place : Nat) (x : α)
  | apply (a : Source α) (f : α → Except Overflow α)
  -- entry by entry
  | map (a : Source α) (f : α → Except Overflow α)
  | zip (a b : Source α) (f : α → α → Except Overflow α)
  | add (a b : Source α)
  | sub (a b : Source α)
  | scale (a : Source α) (x : α)
  | neg (a : Source α)
  | operator (op : Operator) (a b : Source α)
  | equal (a b : Source α)
  -- linear algebra
  | multiply (a b : Source α)
  | product (a b : Source α)
  | strassen (a b : Source α)
  | usesStrassen (a b : Source α)
  | power (a : Source α) (k : Nat)
  | determinant (a : Source α)
  | isRegular (a : Source α)
  | adjugate (a : Source α)
  -- structure
  | transpose (a : Source α)
  | submatrix (a : Source α) (row col : Nat)
  | quadrants (a : Source α)
  | join (topLeft topRight bottomLeft bottomRight : Source α)

/-- The result of a call. -/
inductive Answer (α : Type) where
  | matrix (a : DenseMatrix α)
  | blocks (q : Blocks α)
  | element (x : α)
  | elements (xs : List α)
  /-- A row, if the matrix has it. -/
  | row (row : Option (List α))
  | rows (rows : List (List α))
  | flag (b : Bool)
  /-- A shape, the number of entries, and whether the shape is square. -/
  | description (shape : Shape) (numel : Nat) (square : Bool)
  | text (text : List Char)

/-- The matrices of an answer, which can be kept. -/
def Answer.matrices : Answer α → List (DenseMatrix α)
  | matrix a => [a]
  | blocks q => q.toList
  | _ => []

namespace Call

open Failure (ofChecked ofUnchecked)

/-- The name whose matrix the call changes in place. -/
def target? : Call α → Option String
  | .set (.named name) _ _ _ => some name
  | .assign (.named name) _ _ _ => some name
  | .increase (.named name) _ _ _ => some name
  | .store (.named name) _ _ => some name
  | .apply (.named name) _ => some name
  | _ => none

/-- The result of a call, for a call that changes a matrix in place the changed matrix. -/
def answer [Element α] (s : Store α) : Call α → Except Failure (Answer α)
  | .value a => return .matrix (← s.matrix a)
  | .zeros m n => return .matrix (← ofChecked (DenseMatrix.zeros m n))
  | .full m n x => return .matrix (← ofChecked (DenseMatrix.full m n x))
  | .identity n => return .matrix (← ofChecked (DenseMatrix.identity n))
  | .standard => return .matrix default
  | .describe a => do
    let a ← s.matrix a
    return .description a.shape a.numel a.isSquare
  | .row a r => return .row ((← s.matrix a).row? r)
  | .rows a => return .rows (← s.matrix a).toRows
  | .entries a => return .elements (← s.matrix a).toList
  | .get a i j => do
    let a ← s.matrix a
    return .element (← ofChecked (a.get i j))
  | .index a i j => do
    let a ← s.matrix a
    match a.get i j with
    | .ok x => return .element x
    | .error _ => throw (.aborted (.position i j a.rows a.cols))
  | .set a i j x => do
    let a ← s.matrix a
    return .matrix (← ofChecked (a.set i j x))
  | .assign a i j x => do
    let a ← s.matrix a
    match a.set i j x with
    | .ok a => return .matrix a
    | .error _ => throw (.aborted (.position i j a.rows a.cols))
  | .increase a i j x => do
    let a ← s.matrix a
    return .matrix (← ofChecked (a.update i j (Element.add · x)))
  | .store a place x => do
    let a ← s.matrix a
    match a.store? place x with
    | some a => return .matrix a
    | none => throw (.aborted (.place a.numel place))
  | .apply a f => do
    let a ← s.matrix a
    return .matrix (← ofChecked (a.mapM f))
  | .map a f => do
    let a ← s.matrix a
    return .matrix (← ofChecked (a.mapM f))
  | .zip a b f => do
    let a ← s.matrix a
    let b ← s.matrix b
    return .matrix (← ofChecked (a.zipM f b))
  | .add a b => do
    let a ← s.matrix a
    let b ← s.matrix b
    return .matrix (← ofChecked (a.add b))
  | .sub a b => do
    let a ← s.matrix a
    let b ← s.matrix b
    return .matrix (← ofChecked (a.sub b))
  | .scale a x => do
    let a ← s.matrix a
    return .matrix (← ofChecked (a.scale x))
  | .neg a => do
    let a ← s.matrix a
    return .matrix (← ofChecked a.neg)
  | .operator op a b => do
    let a ← s.matrix a
    let b ← s.matrix b
    return .matrix (← ofUnchecked (op.applyUnchecked a b))
  | .equal a b => do
    let a ← s.matrix a
    let b ← s.matrix b
    return .flag (a.isEqual b)
  | .multiply a b => do
    let a ← s.matrix a
    let b ← s.matrix b
    return .matrix (← ofChecked (a.multiply b))
  | .product a b => do
    let a ← s.matrix a
    let b ← s.matrix b
    return .matrix (← ofChecked (a.product b))
  | .strassen a b => do
    let a ← s.matrix a
    let b ← s.matrix b
    return .matrix (← ofChecked (a.strassen b))
  | .usesStrassen a b => do
    let a ← s.matrix a
    let b ← s.matrix b
    return .flag (a.usesStrassen b)
  | .power a k => do
    let a ← s.matrix a
    return .matrix (← ofChecked (a.power k))
  | .determinant a => do
    let a ← s.matrix a
    return .element (← ofChecked a.determinant)
  | .isRegular a => do
    let a ← s.matrix a
    return .flag (← ofChecked a.isRegular)
  | .adjugate a => do
    let a ← s.matrix a
    return .matrix (← ofChecked a.adjugate)
  | .transpose a => return .matrix (← s.matrix a).transpose
  | .submatrix a i j => do
    let a ← s.matrix a
    return .matrix (← ofChecked (a.submatrix i j))
  | .quadrants a => do
    let a ← s.matrix a
    return .blocks (← ofChecked a.quadrants)
  | .join topLeft topRight bottomLeft bottomRight => do
    let topLeft ← s.matrix topLeft
    let topRight ← s.matrix topRight
    let bottomLeft ← s.matrix bottomLeft
    let bottomRight ← s.matrix bottomRight
    return .matrix (← ofChecked (Blocks.join ⟨topLeft, topRight, bottomLeft, bottomRight⟩))

end Call

end MatrixReckoner
