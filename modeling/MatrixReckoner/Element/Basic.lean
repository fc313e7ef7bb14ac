/-!
The number types a matrix can hold.  Arithmetic answers in `Except Overflow`, so that one
definition of an algorithm serves numbers with a bounded range, which can leave it, and numbers
whose arithmetic always succeeds; the first operation that leaves the range decides the answer.

* `bind_eq_ok_iff`, `bind_eq_error_iff`: one computation after another;
* `map_eq_ok_iff`, `mapError_eq_ok_iff`, `mapError_eq_error_iff`: an answer or a failure rewritten;
* `Overflow`: the operation whose result is outside the range;
* `Element`: zero, one, checked arithmetic, the order and the storage size of an entry;
* `Analytic`: absolute values and reciprocals, for numbers that can be divided;
* `ExactInt.instElement`, `ExactRat.instAnalytic`: exact numbers, over which every algorithm runs to
  its end.
-/

namespace MatrixReckoner

/-! ### Computations that may fail -/

section Computations

variable {ε ε' α β : Type}

theorem bind_eq_ok_iff {x : Except ε α} {f : α → Except ε β} {b : β} :
    x >>= f = .ok b ↔ ∃ a, x = .ok a ∧ f a = .ok b := by
  cases x <;> simp [bind, Except.bind]

theorem bind_eq_error_iff {x : Except ε α} {f : α → Except ε β} {e : ε} :
    x >>= f = .error e ↔ x = .error e ∨ ∃ a, x = .ok a ∧ f a = .error e := by
  cases x <;> simp [bind, Except.bind]

theorem map_eq_ok_iff {x : Except ε α} {f : α → β} {b : β} :
    f <$> x = .ok b ↔ ∃ a, x = .ok a ∧ f a = b := by
  cases x <;> simp [Functor.map, Except.map]

theorem mapError_eq_ok_iff {x : Except ε α} {f : ε → ε'} {a : α} :
    x.mapError f = .ok a ↔ x = .ok a := by
  cases x with
  | ok b => exact ⟨fun h => congrArg Except.ok (Except.ok.inj h), fun h => congrArg _ h⟩
  | error e => exact ⟨nofun, nofun⟩

theorem mapError_eq_error_iff {x : Except ε α} {f : ε → ε'} {e' : ε'} :
    x.mapError f = .error e' ↔ ∃ e, x = .error e ∧ f e = e' := by
  cases x with
  | ok b => exact ⟨nofun, nofun⟩
  | error e =>
    exact ⟨fun h => ⟨e, rfl, Except.error.inj h⟩, fun ⟨_, h, h'⟩ => by cases h; cases h'; rfl⟩

end Computations

/-! ### Entries -/

/-- The arithmetic operation whose result left the range of its number type. -/
inductive Overflow where
  | add
  | sub
  | mul
  | neg
  deriving DecidableEq, Repr

/-- The text that reports an overflow. -/
def Overflow.message : Overflow → String
  | .add => "attempt to add with overflow"
  | .sub => "attempt to subtract with overflow"
  | .mul => "attempt to multiply with overflow"
  | .neg => "attempt to negate with overflow"

/-- Numbers that a matrix can hold.  Equality is the numbers' own, so a type may have a value that
differs from itself. -/
class Element (α : Type) extends BEq α where
  /-- The neutral element of addition, also the entry of a fresh matrix. -/
  zero : α
  /-- The neutral element of multiplication. -/
  one : α
  /-- The sum, if it is in range. -/
  add : α → α → Except Overflow α
  /-- The difference, if it is in range. -/
  sub : α → α → Except Overflow α
  /-- The product, if it is in range. -/
  mul : α → α → Except Overflow α
  /-- The opposite, if it is in range. -/
  neg : α → Except Overflow α
  /-- Whether the first number is below the second. -/
  lt : α → α → Bool
  /-- Bytes that one entry takes in the store whose size `Shape.Fits` limits; zero for
  numbers whose matrices have no such limit. -/
  bytes : Nat

/-- Elements that have absolute values and reciprocals. -/
class Analytic (α : Type) extends Element α where
  /-- The absolute value. -/
  abs : α → α
  /-- One divided by the number. -/
  recip : α → α

/-! ### Exact numbers -/

instance ExactInt.instElement : Element Int where
  beq x y := decide (x = y)
  zero := 0
  one := 1
  add x y := .ok (x + y)
  sub x y := .ok (x - y)
  mul x y := .ok (x * y)
  neg x := .ok (-x)
  lt x y := decide (x < y)
  bytes := 0

instance ExactRat.instAnalytic : Analytic Rat where
  beq x y := decide (x = y)
  zero := 0
  one := 1
  add x y := .ok (x + y)
  sub x y := .ok (x - y)
  mul x y := .ok (x * y)
  neg x := .ok (-x)
  lt x y := decide (x < y)
  bytes := 0
  abs x := if x < 0 then -x else x
  recip x := x⁻¹

end MatrixReckoner
