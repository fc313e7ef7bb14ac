import MatrixReckoner.Element.Basic

/-!
Binary floating-point numbers, in double and in single precision: their formats, and their
arithmetic as matrix entries.  Without its sign, a number of a format is a multiple of the smallest
positive one, its *unit*, and the words of a format count the numbers from zero upwards.

* `roundHalfEven`: a quotient rounded to the nearest integer, a half to the even neighbour;
* `roundHalfEven_dist`, `roundHalfEven_even_of_tie`: it is at most half a unit away, and even if it
  is that far;
* `BinaryFormat`, `BinaryFormat.double`, `BinaryFormat.single`: the two formats;
* `BinaryFormat.units`: the multiple of the unit that a word stands for;
* `BinaryFormat.decode`: the value of a word with a sign;
* `BinaryFormat.nearest`: the word of the number nearest to a fraction;
* `Double.instAnalytic`, `Single.instAnalytic`: the arithmetic;
* `Printable`: numbers with a binary value.
-/

namespace MatrixReckoner

/-! ### Rounding -/

section Rounding

/-- The integer nearest to `num / den`; of two at the same distance, the even one. -/
def roundHalfEven (num den : Nat) : Nat :=
  let quotient := num / den
  let rest := num % den
  if 2 * rest < den then quotient
  else if den < 2 * rest then quotient + 1
  else quotient + quotient % 2

variable {num den : Nat}

/-- Twice the distance from the quotient, in units of the denominator, is at most one. -/
theorem roundHalfEven_dist (num : Nat) (h : 0 < den) :
    2 * num ≤ (2 * roundHalfEven num den + 1) * den ∧
      2 * roundHalfEven num den * den ≤ 2 * num + den := by
  have split : den * (num / den) + num % den = num := Nat.div_add_mod num den
  have rest : num % den < den := Nat.mod_lt num h
  have parity : num / den % 2 = 0 ∨ num / den % 2 = 1 := by omega
  generalize num / den = q at *
  generalize num % den = r at *
  subst split
  have expand : ∀ x : Nat, (2 * x + 1) * den = 2 * (den * x) + den := fun x => by
    rw [Nat.add_mul, Nat.one_mul, Nat.mul_assoc, Nat.mul_comm x den]
  have double : ∀ x : Nat, 2 * x * den = 2 * (den * x) := fun x => by
    rw [Nat.mul_assoc, Nat.mul_comm x den]
  have next : den * (q + 1) = den * q + den := Nat.mul_succ den q
  unfold roundHalfEven
  simp only [Nat.mul_add_div h, Nat.div_eq_of_lt rest, Nat.mul_add_mod, Nat.mod_eq_of_lt rest,
    Nat.add_zero]
  rw [expand, double]
  split
  · omega
  · split
    · omega
    · rcases parity with p | p <;> rw [p]
      · rw [Nat.add_zero]; omega
      · omega

/-- A quotient halfway between two integers is rounded to the even one. -/
theorem roundHalfEven_even_of_tie (h : 2 * (num % den) = den) :
    roundHalfEven num den % 2 = 0 := by
  unfold roundHalfEven
  simp only [h, Nat.lt_irrefl, if_false]
  omega

end Rounding

/-! ### Formats -/

/-- A binary format: the widths of the stored fraction and of the exponent. -/
structure BinaryFormat where
  fractionBits : Nat
  exponentBits : Nat
  deriving DecidableEq, Repr

/-- The value of a floating-point word. -/
inductive BinaryValue where
  | nan
  | infinite (negative : Bool)
  /-- A fraction with a sign; zero has both. -/
  | finite (negative : Bool) (num den : Nat)
  deriving DecidableEq, Repr

namespace BinaryFormat

/-- Double precision. -/
def double : BinaryFormat := ⟨52, 11⟩

/-- Single precision. -/
def single : BinaryFormat := ⟨23, 8⟩

variable (f : BinaryFormat)

/-- The unit of the format is one over two to this exponent. -/
def unitExponent : Nat :=
  Nat.pow 2 (f.exponentBits - 1) - 2 + f.fractionBits

/-- The word of infinity, above all words of numbers. -/
def infinity : Nat :=
  (Nat.pow 2 f.exponentBits - 1) * Nat.pow 2 f.fractionBits

/-- The number of units that a word below `infinity` stands for. -/
def units (word : Nat) : Nat :=
  let field := word / Nat.pow 2 f.fractionBits
  let fraction := word % Nat.pow 2 f.fractionBits
  if field = 0 then fraction else (Nat.pow 2 f.fractionBits + fraction) * Nat.pow 2 (field - 1)

/-- The value of a word whose highest bit is the sign. -/
def decode (word : Nat) : BinaryValue :=
  let signPlace := Nat.pow 2 (f.exponentBits + f.fractionBits)
  let negative := decide (word / signPlace % 2 = 1)
  let magnitude := word % signPlace
  if magnitude < f.infinity then .finite negative (f.units magnitude) (Nat.pow 2 f.unitExponent)
  else if magnitude = f.infinity then .infinite negative
  else .nan

/-- The word of the number nearest to `num / den`, of two at the same distance the even word, and
infinity for a fraction too large to round to a number.  The fraction is measured in units and
rounded at the last place that the format keeps at that size. -/
def nearest (num den : Nat) : Nat :=
  let scaled := num * Nat.pow 2 f.unitExponent
  let shift := (scaled / den).log2 - f.fractionBits
  min f.infinity
    (shift * Nat.pow 2 f.fractionBits + roundHalfEven scaled (den * Nat.pow 2 shift))

end BinaryFormat

/-! ### Entries

Every operation rounds to nearest and none overflows: a result that is too large is infinite.
Equality is that of the numbers, so the two zeros are equal and a value that is not a number differs
from itself. -/

instance Double.instAnalytic : Analytic Float where
  beq x y := x == y
  zero := 0
  one := 1
  add x y := .ok (x + y)
  sub x y := .ok (x - y)
  mul x y := .ok (x * y)
  neg x := .ok (-x)
  lt x y := decide (x < y)
  bytes := 8
  abs := Float.abs
  recip x := 1 / x

instance Single.instAnalytic : Analytic Float32 where
  beq x y := x == y
  zero := 0
  one := 1
  add x y := .ok (x + y)
  sub x y := .ok (x - y)
  mul x y := .ok (x * y)
  neg x := .ok (-x)
  lt x y := decide (x < y)
  bytes := 4
  abs := Float32.abs
  recip x := 1 / x

/-- Numbers whose exact value is that of a binary floating-point word. -/
class Printable (α : Type) where
  /-- The value to print. -/
  value : α → BinaryValue

instance Double.instPrintable : Printable Float where
  value x := BinaryFormat.double.decode x.toBits.toNat

instance Single.instPrintable : Printable Float32 where
  value x := BinaryFormat.single.decode x.toBits.toNat

end MatrixReckoner
