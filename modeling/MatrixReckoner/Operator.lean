/-!
The binary operators between matrices or numbers: their written form and how tightly they bind.

* `Operator`: addition, subtraction, multiplication;
* `Operator.ofChar?`, `Operator.symbol`: the written form;
* `Operator.priority`: multiplication binds tighter than the other two.
-/

namespace MatrixReckoner

/-- A binary operator. -/
inductive Operator where
  | add
  | sub
  | mul
  deriving DecidableEq, Repr

namespace Operator

/-- The operator that a character writes, if any. -/
def ofChar? : Char → Option Operator
  | '+' => some add
  | '-' => some sub
  | '*' => some mul
  | _ => none

/-- The character that writes the operator. -/
def symbol : Operator → Char
  | add => '+'
  | sub => '-'
  | mul => '*'

/-- How tightly the operator binds. -/
def priority : Operator → Nat
  | add => 1
  | sub => 1
  | mul => 2

/-- The word for the operator in messages. -/
def word : Operator → String
  | add => "add"
  | sub => "sub"
  | mul => "mul"

theorem ofChar?_eq_some_iff {c : Char} {op : Operator} : ofChar? c = some op ↔ c = op.symbol := by
  constructor
  · intro h
    unfold ofChar? at h
    split at h <;> cases h <;> rfl
  · rintro rfl
    cases op <;> rfl

end Operator

end MatrixReckoner
