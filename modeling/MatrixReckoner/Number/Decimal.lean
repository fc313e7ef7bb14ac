import MatrixReckoner.Element.Floating

/-!
Decimal text of numbers: a fixed number of digits after the point when writing, any number of
digits when reading.

* `digitsOfWidth`: the last digits of a natural number;
* `fixedText`, `BinaryValue.text`: a fraction with a fixed number of places, rounded from its exact
  decimal expansion;
* `Numeral`, `Numeral.toDouble?`: the digits around a point, and the double nearest to the number
  that they denote.
-/

namespace MatrixReckoner

/-! ### Writing -/

/-- The last `width` decimal digits of `n`, with leading zeros. -/
def digitsOfWidth : (width : Nat) → Nat → List Char
  | 0, _ => []
  | width + 1, n => digitsOfWidth width (n / 10) ++ [Nat.digitChar (n % 10)]

theorem length_digitsOfWidth (width n : Nat) : (digitsOfWidth width n).length = width := by
  induction width generalizing n with
  | zero => rfl
  | succ width ih => simp [digitsOfWidth, ih]

/-- The fraction `num / den` with `places` digits after the point, a half rounded to the even
neighbour.  Without places there is no point. -/
def fixedText (places num den : Nat) : List Char :=
  let rounded := roundHalfEven (num * Nat.pow 10 places) den
  Nat.toDigits 10 (rounded / Nat.pow 10 places) ++
    if places = 0 then [] else '.' :: digitsOfWidth places rounded

/-- The sign in front of a negative number; a negative zero has one. -/
def signText (negative : Bool) : List Char :=
  if negative then ['-'] else []

/-- The text of a floating-point value with `places` digits after the point. -/
def BinaryValue.text (places : Nat) : BinaryValue → List Char
  | nan => ['N', 'a', 'N']
  | infinite negative => signText negative ++ ['i', 'n', 'f']
  | finite negative num den => signText negative ++ fixedText places num den

/-! ### Reading -/

/-- A written number: the digits before the point and the digits after it. -/
structure Numeral where
  whole : List Char
  fraction : List Char
  deriving DecidableEq, Repr

namespace Numeral

/-- The integer that all digits denote together; the number is this over a power of ten. -/
def mantissa (n : Numeral) : Nat :=
  Nat.ofDigitChars 10 (n.whole ++ n.fraction) 0

/-- The double nearest to the number. -/
def toDouble (n : Numeral) : Float :=
  .ofBits (BinaryFormat.double.nearest n.mantissa (Nat.pow 10 n.fraction.length)).toUInt64

/-- The double nearest to the number, if there is a digit at all. -/
def toDouble? (n : Numeral) : Option Float :=
  if n.whole = [] && n.fraction = [] then none else some n.toDouble

end Numeral

end MatrixReckoner
