import MatrixReckoner.Proofs.Expression.Tree
import MatrixReckoner.Proofs.Number.Nearest

/-!
A number that is read from the fixed text of a number has that text, too.

* `Numeral.fixed`: the numeral with a given mantissa and number of places.
* `Numeral.fixed_spelled`: the fixed text of a fraction spells the numeral of the rounded fraction.
* `BinaryFormat.fixedText_units_nearest`: the number nearest to the numeral has the fixed text that
  the numeral is read from.
-/

namespace MatrixReckoner

open Expression

/-! ### Numerals with a fixed number of places -/

/-- The numeral of a natural number over a power of ten, with all its places. -/
def Numeral.fixed (places n : ℕ) : Numeral :=
  ⟨Nat.toDigits 10 (n / 10 ^ places), digitsOfWidth places n⟩

lemma isDigit_of_mem_digitsOfWidth {width n : ℕ} : Digits (digitsOfWidth width n) := by
  induction width generalizing n with
  | zero => exact nofun
  | succ width ih =>
      intro c hc
      rcases List.mem_append.mp hc with hc | hc
      · exact ih c hc
      · obtain rfl := List.mem_singleton.mp hc
        rw [Nat.isDigit_digitChar]
        exact decide_eq_true (Nat.mod_lt n (by norm_num))

/-- The last digits of a number denote its remainder by a power of ten. -/
lemma ofDigitChars_digitsOfWidth (width n start : ℕ) :
    Nat.ofDigitChars 10 (digitsOfWidth width n) start = start * 10 ^ width + n % 10 ^ width := by
  induction width generalizing n with
  | zero => rw [pow_zero, mul_one, Nat.mod_one, add_zero]; rfl
  | succ width ih =>
      have hlast : n % 10 ^ (width + 1) = 10 * (n / 10 % 10 ^ width) + n % 10 := by
        rw [pow_succ', Nat.mod_mul, add_comm]
      rw [digitsOfWidth, Nat.ofDigitChars_append, ih,
        Nat.ofDigitChars_cons_digitChar_of_lt_ten (Nat.mod_lt n (by norm_num)),
        Nat.ofDigitChars_nil, hlast]
      ring

namespace Numeral

lemma mantissa_fixed (places n : ℕ) : (fixed places n).mantissa = n := by
  rw [mantissa, fixed, Nat.ofDigitChars_append, Nat.ofDigitChars_ten_toDigits,
    ofDigitChars_digitsOfWidth, Nat.div_add_mod']

lemma length_fraction_fixed (places n : ℕ) : (fixed places n).fraction.length = places :=
  length_digitsOfWidth places n

/-- The fixed text of a fraction spells the numeral of the rounded fraction. -/
lemma fixed_spelled (places num den : ℕ) :
    NumeralSpelled (fixed places (roundHalfEven (num * 10 ^ places) den))
      (fixedText places num den) := by
  have hwhole : ∀ n, Digits (Nat.toDigits 10 n) := fun n c hc =>
    Nat.isDigit_of_mem_toDigits (by norm_num) (by norm_num) hc
  rw [fixedText, fixed]
  split
  · next h =>
    subst h
    rw [List.append_nil]
    exact .whole (hwhole _) Nat.toDigits_ne_nil
  · exact .point (hwhole _) isDigit_of_mem_digitsOfWidth
      (List.append_ne_nil_of_left_ne_nil Nat.toDigits_ne_nil _)

end Numeral

/-! ### Reading back -/

namespace BinaryFormat

variable (f : BinaryFormat) {word : ℕ}

section

variable (heb : 2 ≤ f.exponentBits) (hinteger : 2 ^ f.unitExponent ∣ f.greatest)
  (hword : word < f.infinity) (places : ℕ)

include heb hinteger hword

/-- If the greatest number is an integer, then no number is rounded to a numeral above it. -/
lemma roundHalfEven_units_le :
    roundHalfEven (f.units word * 10 ^ places) (2 ^ f.unitExponent) * 2 ^ f.unitExponent ≤
      f.greatest * 10 ^ places := by
  obtain ⟨greatest, hgreatest⟩ := hinteger
  have hshift : f.greatest * 10 ^ places = greatest * 10 ^ places * 2 ^ f.unitExponent := by
    rw [hgreatest]
    ring
  rw [hshift]
  refine Nat.mul_le_mul_right _ (roundHalfEven_le (Nat.two_pow_pos _) ?_)
  calc f.units word * 10 ^ places ≤ f.greatest * 10 ^ places :=
      Nat.mul_le_mul_right _ (f.units_le_greatest heb hword)
    _ = greatest * 10 ^ places * 2 ^ f.unitExponent := hshift

/-- **The fixed text of a number is that of the number nearest to it.**  Let the greatest number of
a format be an integer. Then the rounded fixed text of a number is not above it, so the nearest
number is finite; and this is no farther away from the text than the number that was written, so its
text is rounded to the same digits, at a tie to the same even ones. -/
theorem fixedText_units_nearest :
    ∃ word' < f.infinity,
      f.nearest (roundHalfEven (f.units word * 10 ^ places) (2 ^ f.unitExponent)) (10 ^ places) =
          word' ∧
        fixedText places (f.units word') (2 ^ f.unitExponent) =
          fixedText places (f.units word) (2 ^ f.unitExponent) := by
  have hten : 0 < 10 ^ places := Nat.pow_pos (by norm_num)
  have hrange := f.roundHalfEven_units_le heb hinteger hword places
  set rounded := roundHalfEven (f.units word * 10 ^ places) (2 ^ f.unitExponent) with hrounded
  refine ⟨_, f.nearest_lt_infinity heb hten hrange, rfl, ?_⟩
  have hnearest := f.natAbs_units_nearest_le heb hten hrange word
  set word' := f.nearest rounded (10 ^ places)
  have hsame : roundHalfEven (f.units word' * 10 ^ places) (2 ^ f.unitExponent) = rounded := by
    refine roundHalfEven_eq_of_natAbs_le (Nat.two_pow_pos _) ?_
    rw [← hrounded]
    push_cast at hnearest ⊢
    omega
  simp only [fixedText, Nat.pow_eq, hsame, ← hrounded]

end

lemma dvd_greatest_double : 2 ^ double.unitExponent ∣ double.greatest :=
  (pow_dvd_pow 2 (by decide)).mul_left _

end BinaryFormat

end MatrixReckoner
