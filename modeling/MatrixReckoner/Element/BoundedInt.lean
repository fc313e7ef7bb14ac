import MatrixReckoner.Element.Basic

/-!
Integers of a fixed width.  A value is an integer together with the proof that it is in range, and
arithmetic is exact: it answers the mathematical result or reports that this is out of range, and
never wraps.

* `IntWidth`: the two widths;
* `BoundedInt`: the integers of a width;
* `BoundedInt.checked_eq_ok_iff`: a checked result is the exact one;
* `BoundedInt.instElement`: the arithmetic of matrix entries.
-/

namespace MatrixReckoner

/-- The widths of bounded integers. -/
inductive IntWidth where
  | w32
  | w64
  deriving DecidableEq, Repr

namespace IntWidth

/-- Bytes of a stored integer. -/
def bytes : IntWidth → Nat
  | w32 => 4
  | w64 => 8

/-- The first magnitude that is out of range: `2 ^ 31` or `2 ^ 63`. -/
def limit (w : IntWidth) : Int := Int.pow 2 (8 * w.bytes - 1)

theorem one_lt_limit (w : IntWidth) : 1 < w.limit := by
  cases w <;> decide

end IntWidth

/-- The integers from `-limit` up to but not including `limit`. -/
structure BoundedInt (w : IntWidth) where
  /-- The integer. -/
  val : Int
  le_val : -w.limit ≤ val
  val_lt : val < w.limit

namespace BoundedInt

variable {w : IntWidth}

instance : DecidableEq (BoundedInt w) := fun x y =>
  decidable_of_iff (x.val = y.val) ⟨fun h => by cases x; cases y; cases h; rfl, fun h => h ▸ rfl⟩

theorem val_injective {x y : BoundedInt w} (h : x.val = y.val) : x = y := by
  cases x; cases y; cases h; rfl

/-- The bounded integer of value `x`, if there is one. -/
def ofInt? (w : IntWidth) (x : Int) : Option (BoundedInt w) :=
  if h : -w.limit ≤ x ∧ x < w.limit then some ⟨x, h.1, h.2⟩ else none

/-- The exact result `x` of an operation, or the overflow of that operation. -/
def checked (operation : Overflow) (x : Int) : Except Overflow (BoundedInt w) :=
  if h : -w.limit ≤ x ∧ x < w.limit then .ok ⟨x, h.1, h.2⟩ else .error operation

theorem checked_eq_ok_iff {operation : Overflow} {x : Int} {y : BoundedInt w} :
    checked operation x = .ok y ↔ y.val = x := by
  unfold checked
  split
  · next h =>
    constructor
    · rintro ⟨⟩; rfl
    · rintro rfl; rfl
  · next h =>
    constructor
    · rintro ⟨⟩
    · rintro rfl; exact absurd ⟨y.le_val, y.val_lt⟩ h

/-- Zero is in range. -/
protected def zero : BoundedInt w :=
  ⟨0, by have := w.one_lt_limit; omega, by have := w.one_lt_limit; omega⟩

/-- One is in range. -/
protected def one : BoundedInt w :=
  ⟨1, by have := w.one_lt_limit; omega, w.one_lt_limit⟩

instance instElement : Element (BoundedInt w) where
  beq x y := decide (x.val = y.val)
  zero := .zero
  one := .one
  add x y := checked .add (x.val + y.val)
  sub x y := checked .sub (x.val - y.val)
  mul x y := checked .mul (x.val * y.val)
  neg x := checked .neg (-x.val)
  lt x y := decide (x.val < y.val)
  bytes := w.bytes

end BoundedInt

end MatrixReckoner
