import MatrixReckoner.Session.Call

/-!
Sequences of calls that share a store.  A call that fails changes nothing; one that succeeds may
change the matrix it works on in place and may have its results kept under names.

* `RealCall`, `RealCall.answer`: the calls on any elements, and those on numbers that can be divided
  and printed: inverses, integer powers, comparison up to a tolerance and text;
* `Calling`: kinds of calls, with their answers and targets;
* `Step`: a call and the names for its results;
* `Store.perform`, `Store.run`: one step, and all steps in turn.
-/

namespace MatrixReckoner

variable {α κ : Type}

/-! ### Calls on real numbers -/

/-- An operation on matrices of divisible, printable numbers. -/
inductive RealCall (α : Type) where
  | general (call : Call α)
  | close (a b : Source α) (tolerance : α)
  | integerPower (a : Source α) (k : Int)
  | inverse (a : Source α)
  /-- The text with a number of places, or with the default number. -/
  | text (a : Source α) (places : Option Nat)

namespace RealCall

open Failure (ofChecked)

/-- The name whose matrix the call changes in place. -/
def target? : RealCall α → Option String
  | general call => call.target?
  | _ => none

/-- The result of a call. -/
def answer [Analytic α] [Printable α] (s : Store α) : RealCall α → Except Failure (Answer α)
  | general call => call.answer s
  | close a b tolerance => do
    let a ← s.matrix a
    let b ← s.matrix b
    return .flag (← ofChecked (MatrixError.ofArithmetic (a.isClose b tolerance)))
  | integerPower a k => do
    let a ← s.matrix a
    return .matrix (← ofChecked (a.integerPower k))
  | inverse a => do
    let a ← s.matrix a
    return .matrix (← ofChecked a.inverse)
  | text a places => do
    let a ← s.matrix a
    return .text (a.text (places.getD DenseMatrix.defaultPlaces))

end RealCall

/-! ### Steps -/

/-- A kind of calls on matrices over `α`. -/
class Calling (κ : Type) (α : outParam Type) where
  /-- The name whose matrix a call changes in place. -/
  target? : κ → Option String
  /-- The result of a call on the kept matrices. -/
  answer : Store α → κ → Except Failure (Answer α)

instance Call.instCalling [Element α] : Calling (Call α) α where
  target? := Call.target?
  answer := Call.answer

instance RealCall.instCalling [Analytic α] [Printable α] : Calling (RealCall α) α where
  target? := RealCall.target?
  answer := RealCall.answer

/-- A call, and the names under which its results are kept. -/
structure Step (κ : Type) where
  call : κ
  names : List String

namespace Store

/-- The store with matrices put under names, as far as there are both. -/
def putAll (s : Store α) (names : List String) (matrices : List (DenseMatrix α)) : Store α :=
  (names.zip matrices).foldl (fun s (name, a) => s.put name a) s

variable [Calling κ α]

/-- Performs one step: a result goes under the name that the call changes in place, then under the
names of the step. -/
def perform (s : Store α) (step : Step κ) : Store α × Except Failure (Answer α) :=
  match Calling.answer s step.call with
  | .ok answer =>
    let changed := s.putAll (Calling.target? step.call).toList answer.matrices
    (changed.putAll step.names answer.matrices, .ok answer)
  | .error failure => (s, .error failure)

/-- The answers of all steps in turn. -/
def run (s : Store α) : List (Step κ) → List (Except Failure (Answer α))
  | [] => []
  | step :: steps =>
    let (s, answer) := s.perform step
    answer :: s.run steps

end Store

end MatrixReckoner
