import MatrixReckoner.Proofs.Floating.Exactness
import MatrixReckoner.Proofs.Floating.Words

/-!
The two zeros of doubles: a sum is the negative one only if both terms are.

* `Double.signedZero`, `Double.eq_signedZero_iff`: the zeros are read from their words, and from no
  others.
* `Double.Nonzero`, `Double.nonzero_round`: a multiple of the smallest double that is not zero is
  not rounded to zero.
* `Double.Nonzero.add`: a sum without a zero is never a negative zero.
* `Double.add_eq_negativeZero_iff`, `Double.sub_eq_negativeZero_iff`: sums and differences that are
  negative zeros.
* `Double.beq_zero_iff`: both zeros equal zero, and nothing else does.
-/

namespace MatrixReckoner.Double

open Float.Model (Format UnpackedFloat totalExponent)
open Float.Model.UnpackedFloat

variable {s t : Sign} {m : ℕ} {e : ℤ} {hm : 0 < m}

/-! ### The words of the zeros -/

/-- The zero with a sign. -/
def signedZero (s : Sign) : Float :=
  .ofModel (Float.Model.pack (.zero s))

lemma signedZero_positive : signedZero .positive = 0 := rfl

lemma signedZero_negative : signedZero .negative = -0 := rfl

lemma ofFields_eq_zero_iff {f : BitVec 11} {g : BitVec 52} :
    ofFields s f g = .zero t ↔ s = t ∧ f = 0#11 ∧ g = 0#52 := by
  unfold ofFields
  split
  · next hf => split <;> simp [hf]
  · split
    · split <;> simp_all
    · simp_all

lemma unpack_pack_zero : (Float.Model.pack (.zero s)).unpack = .zero s :=
  unpack_pack (.zero s)

/-- Only the word of a zero is read as this zero. -/
lemma eq_signedZero_iff {x : Float} : x = signedZero s ↔ x.toModel.unpack = .zero s := by
  refine ⟨?_, fun h => ?_⟩
  · rintro rfl
    exact unpack_pack_zero
  · obtain ⟨negative, magnitude, -, hword⟩ := exists_word x.toModel.toBits.toBitVec
    rw [Float.Model.unpack, hword, unpack_word, ofFields_eq_zero_iff] at h
    obtain ⟨hsign, hexponent, hsignificand⟩ := h
    rw [word, hsign, hexponent, hsignificand] at hword
    obtain ⟨⟨bits, hvalid⟩⟩ := x
    obtain rfl : bits = UInt64.ofBitVec (packedZero Format.binary64 s) :=
      UInt64.toBitVec_inj.mp hword
    rfl

/-! ### Rounding away from zero -/

/-- What is not packed into the word of a zero: significands of at most 53 bits with an exponent of
a double, or a larger one, and what is not finite. -/
inductive Nonzero : UnpackedFloat → Prop where
  | finite {s : Sign} {m : ℕ} {e : ℤ} {hm : 0 < m} (hlt : m < 2 ^ 53) (hle : -1074 ≤ e) :
      Nonzero (.finite s m e hm)
  | infinity (s : Sign) : Nonzero (.infinity s)
  | notANumber : Nonzero .notANumber

lemma mantissa_shiftRight (a : ExtendedMantissa) (k : ℕ) :
    (a >>> k).mantissa = a.mantissa / 2 ^ k := by
  change (Nat.repeat ExtendedMantissa.shiftRightOne k a).mantissa = _
  induction k with
  | zero => simp [Nat.repeat]
  | succ k ih =>
      rw [Nat.repeat, ExtendedMantissa.shiftRightOne, ih, Nat.div_div_eq_div_mul, pow_succ]

lemma mantissa_le_roundedMantissa (a : ExtendedMantissa) : a.mantissa ≤ a.roundedMantissa := by
  obtain ⟨m, _ | _, _ | _⟩ := a
  · exact le_rfl
  · exact le_rfl
  · exact Nat.le_add_right m _
  · exact Nat.le_add_right m 1

/-- All that is shifted out of a significand are its bits behind the first 53. -/
lemma shiftToTargetExponent_exact (hle : -1074 ≤ e) :
    (shiftToTargetExponent Format.binary64 m e .exact).1.mantissa = m / 2 ^ (m.log2 - 52) ∧
      (shiftToTargetExponent Format.binary64 m e .exact).2 = e + (m.log2 - 52 : ℕ) := by
  have hshift : (Format.binary64.targetExponent (totalExponent m e) - e).toNat = m.log2 - 52 := by
    rw [targetExponent_eq]
    omega
  rw [shiftToTargetExponent, shiftToExponent, hshift]
  exact ⟨mantissa_shiftRight _ _, rfl⟩

/-- The first 53 bits of a significand. -/
lemma div_two_pow_log2 (hm : 0 < m) :
    0 < m / 2 ^ (m.log2 - 52) ∧ m / 2 ^ (m.log2 - 52) < 2 ^ 53 := by
  have hpos : 0 < 2 ^ (m.log2 - 52) := by positivity
  refine ⟨Nat.div_pos ?_ hpos, (Nat.div_lt_iff_lt_mul hpos).mpr ?_⟩
  · calc 2 ^ (m.log2 - 52) ≤ 2 ^ m.log2 := Nat.pow_le_pow_right two_pos (Nat.sub_le _ _)
      _ ≤ m := Nat.log2_self_le hm.ne'
  · calc m < 2 ^ (m.log2 + 1) := Nat.lt_log2_self
      _ ≤ 2 ^ (53 + (m.log2 - 52)) := Nat.pow_le_pow_right two_pos (by omega)
      _ = 2 ^ 53 * 2 ^ (m.log2 - 52) := pow_add _ _ _

lemma nonzero_roundWithAccuracy (hm : 0 < m) (hle : -1074 ≤ e) :
    Nonzero (roundWithAccuracy Format.binary64 s m e .exact) := by
  obtain ⟨hfirst, hfirst'⟩ := shiftToTargetExponent_exact (m := m) hle
  rw [roundWithAccuracy]
  generalize shiftToTargetExponent Format.binary64 m e .exact = first at hfirst hfirst'
  have hrounded : 0 < first.1.roundedMantissa :=
    ((div_two_pow_log2 hm).1.trans_eq hfirst.symm).trans_le (mantissa_le_roundedMantissa _)
  have hle' : -1074 ≤ first.2 := by omega
  -- A significand that is rounded up to 54 bits is shifted once more.
  obtain ⟨hsecond, hsecond'⟩ := shiftToTargetExponent_exact (m := first.1.roundedMantissa) hle'
  obtain ⟨hpos, hlt⟩ := div_two_pow_log2 hrounded
  dsimp only
  split
  · omega
  · exact .finite (by omega) (by omega)

/-- **No underflow to zero**: a number whose last place is at least that of the smallest double is
not rounded to zero. -/
theorem nonzero_round (hm : 0 < m) (hle : -1074 ≤ e) :
    Nonzero (UnpackedFloat.round Format.binary64 s m e) := by
  have htarget := targetExponent_eq m e
  rw [UnpackedFloat.round, decreaseExponent]
  refine nonzero_roundWithAccuracy ?_ ?_
  · rw [Nat.shiftLeft_eq]
    positivity
  · omega

lemma normalize_cases (z : ℤ) (hle : -1074 ≤ e) :
    UnpackedFloat.normalize Format.binary64 z e t = .zero t ∨
      Nonzero (UnpackedFloat.normalize Format.binary64 z e t) := by
  rw [UnpackedFloat.normalize]
  split
  · next hlt =>
    rw [Int.compare_eq_lt] at hlt
    exact Or.inr (nonzero_round (by omega) hle)
  · exact Or.inl rfl
  · next hgt =>
    rw [Int.compare_eq_gt] at hgt
    exact Or.inr (nonzero_round (by omega) hle)

/-! ### Packing -/

/-- A significand and an exponent that are not both zero as fields are not those of a zero. -/
lemma unpack_packComponents_ne_zero {f : BitVec 11} {g : BitVec 52}
    (h : f.toNat ≠ 0 ∨ g.toNat ≠ 0) :
    unpack Format.binary64 (packComponents Format.binary64 s f g) ≠ .zero t := by
  rw [unpack_packComponents, Ne, ofFields_eq_zero_iff]
  rintro ⟨-, rfl, rfl⟩
  exact h.elim (fun h => h rfl) fun h => h rfl

namespace Nonzero

variable {u v : UnpackedFloat}

lemma ne_zero (h : Nonzero u) : u ≠ .zero t := by
  rintro rfl
  cases h

/-- A significand of 53 bits has an exponent field of its own, a smaller one is stored as it is. -/
lemma unpack_pack_ne_zero (h : Nonzero u) : (Float.Model.pack u).unpack ≠ .zero t := by
  change unpack Format.binary64 (pack Format.binary64 u) ≠ .zero t
  cases h with
  | infinity s => exact unpack_packComponents_ne_zero (Or.inl (by decide))
  | notANumber => exact unpack_packComponents_ne_zero (Or.inl (by decide))
  | @finite s m e hm hlt hle =>
    have hbits : Format.binary64.mantissaBits = 53 := rfl
    rw [pack, exponentBias_binary64, hbits]
    dsimp only
    split
    · exact unpack_packComponents_ne_zero (Or.inl (by decide))
    · split
      · refine unpack_packComponents_ne_zero (Or.inl ?_)
        rw [BitVec.toNat_ofNat]
        omega
      · have hlog : m.log2 < 52 := by
          have hlog' := (Nat.log2_lt hm.ne').mpr hlt
          omega
        have hlt' := (Nat.log2_lt hm.ne').mp hlog
        refine unpack_packComponents_ne_zero (Or.inr ?_)
        rw [BitVec.toNat_ofNat]
        omega

lemma zero_add (hv : Nonzero v) : Nonzero (UnpackedFloat.add Format.binary64 (.zero s) v) := by
  cases hv with
  | finite hlt hle => exact .finite hlt hle
  | infinity s' => exact .infinity s'
  | notANumber => exact .notANumber

lemma add_zero (hu : Nonzero u) : Nonzero (UnpackedFloat.add Format.binary64 u (.zero s)) := by
  cases hu with
  | finite hlt hle => exact .finite hlt hle
  | infinity s' => exact .infinity s'
  | notANumber => exact .notANumber

/-- Terms that cancel make a positive zero, and all others none. -/
lemma add (hu : Nonzero u) (hv : Nonzero v) :
    UnpackedFloat.add Format.binary64 u v = .zero .positive ∨
      Nonzero (UnpackedFloat.add Format.binary64 u v) := by
  cases hu with
  | finite hlt hle =>
    cases hv with
    | finite hlt' hle' => exact normalize_cases _ (le_min hle hle')
    | infinity s' => exact Or.inr (.infinity s')
    | notANumber => exact Or.inr .notANumber
  | infinity s =>
    cases hv with
    | finite => exact Or.inr (.infinity s)
    | infinity s' =>
      right
      rw [UnpackedFloat.add]
      split
      · exact .infinity s
      · exact .notANumber
    | notANumber => exact Or.inr .notANumber
  | notANumber => exact Or.inr .notANumber

end Nonzero

/-! ### Doubles -/

lemma canonical_of_unpack {x : Float} (hx : x.toModel.unpack = .finite s m e hm) :
    Canonical m e := by
  have hfinite : x.isFinite = true := congrArg UnpackedFloat.isFinite hx
  obtain ⟨r, hr⟩ := isFinite_iff.mp hfinite
  rw [hx] at hr
  cases hr with
  | finite h => exact h

section Doubles

variable (x y : Float)

lemma zero_or_nonzero : (∃ s, x.toModel.unpack = .zero s) ∨ Nonzero x.toModel.unpack := by
  cases hx : x.toModel.unpack with
  | zero s => exact Or.inl ⟨s, rfl⟩
  | infinity s => exact Or.inr (.infinity s)
  | notANumber => exact Or.inr .notANumber
  | finite s m e hm =>
    have hcanonical := canonical_of_unpack hx
    exact Or.inr (.finite hcanonical.lt hcanonical.min_le)

/-- **Sums that are negative zeros**: rounding never makes one, and terms that cancel do not either,
so both terms are. -/
theorem add_eq_negativeZero_iff : x + y = -0 ↔ x = -0 ∧ y = -0 := by
  rw [← signedZero_negative, eq_signedZero_iff, eq_signedZero_iff, eq_signedZero_iff]
  change (Float.Model.pack (UnpackedFloat.add Format.binary64 x.toModel.unpack
    y.toModel.unpack)).unpack = _ ↔ _
  rcases zero_or_nonzero x with ⟨s, hx⟩ | hx <;> rcases zero_or_nonzero y with ⟨s', hy⟩ | hy
  · rw [hx, hy]
    cases s <;> cases s' <;> simp [UnpackedFloat.add, unpack_pack_zero]
  · rw [hx]
    exact iff_of_false hy.zero_add.unpack_pack_ne_zero fun h => hy.ne_zero h.2
  · rw [hy]
    exact iff_of_false hx.add_zero.unpack_pack_ne_zero fun h => hx.ne_zero h.1
  · refine iff_of_false ?_ fun h => hx.ne_zero h.1
    rcases hx.add hy with hsum | hsum
    · rw [hsum, unpack_pack_zero]
      rintro ⟨⟩
    · exact hsum.unpack_pack_ne_zero

/-- The opposite is read from its word with the other sign. -/
lemma unpack_neg : (-x).toModel.unpack = x.toModel.unpack.neg := by
  change (Float.Model.pack x.toModel.unpack.neg).unpack = _
  cases hx : x.toModel.unpack with
  | zero s => exact unpack_pack (.zero (-s))
  | infinity s => exact (unpack_packComponents (-s) (-1#11) 0#52).trans rfl
  | notANumber => rfl
  | finite s m e hm => exact unpack_pack (.finite (canonical_of_unpack hx))

lemma neg_eq_negativeZero_iff : -y = -0 ↔ y = 0 := by
  rw [← signedZero_negative, ← signedZero_positive, eq_signedZero_iff, eq_signedZero_iff,
    unpack_neg]
  cases y.toModel.unpack with
  | zero s =>
    cases s with
    | positive => exact iff_of_true rfl rfl
    | negative => exact iff_of_false nofun nofun
  | infinity s => exact iff_of_false nofun nofun
  | notANumber => exact iff_of_false nofun nofun
  | finite s m e hm => exact iff_of_false nofun nofun

/-- A difference is the sum with the opposite. -/
lemma float_sub_eq_add_neg : x - y = x + -y := by
  change Float.ofModel (Float.Model.pack (UnpackedFloat.sub Format.binary64 x.toModel.unpack
    y.toModel.unpack)) = Float.ofModel (Float.Model.pack (UnpackedFloat.add Format.binary64
      x.toModel.unpack (-y).toModel.unpack))
  rw [unpack_neg, sub_eq_add_opposite]

/-- **Differences that are negative zeros**: that of the negative zero and the positive one only. -/
theorem sub_eq_negativeZero_iff : x - y = -0 ↔ x = -0 ∧ y = 0 := by
  rw [float_sub_eq_add_neg, add_eq_negativeZero_iff, neg_eq_negativeZero_iff]

/-- Both zeros equal zero, and nothing else does. -/
lemma beq_zero_iff : (x == 0) = true ↔ x = 0 ∨ x = -0 := by
  rw [← signedZero_negative, ← signedZero_positive, eq_signedZero_iff, eq_signedZero_iff]
  change UnpackedFloat.beq x.toModel.unpack (.zero .positive) = true ↔ _
  cases x.toModel.unpack with
  | zero s => cases s <;> exact iff_of_true rfl (by simp)
  | infinity s => cases s <;> exact iff_of_false nofun nofun
  | notANumber => exact iff_of_false nofun nofun
  | finite s m e hm => cases s <;> exact iff_of_false nofun nofun

end Doubles

end MatrixReckoner.Double
