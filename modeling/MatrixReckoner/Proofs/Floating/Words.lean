import MatrixReckoner.DenseMatrix.Structure
import MatrixReckoner.Proofs.Floating.Canonical

/-!
The words of finite doubles.

* `Double.word`: the word with a sign and a magnitude.
* `Double.pack_unpack_word`, `Double.pack_neg_unpack_word`: the word of a number, and that of its
  opposite.
* `Double.decode_word`: the value of a word.
* `Double.exists_value_eq_finite`: the value of a finite double is a number of the format.
* `Double.value_ofBits`, `Double.value_neg_ofBits`: every number of the format is the value of a
  double, and its opposite is that of the opposite double.
-/

namespace MatrixReckoner.Double

open Float.Model (Format UnpackedFloat)
open Float.Model.UnpackedFloat
open BinaryFormat (double)

/-! ### Words by sign and magnitude -/

/-- The sign of a number that is negative or not. -/
def sign (negative : Bool) : Sign :=
  if negative then .negative else .positive

/-- The word with a sign and a magnitude. -/
def word (negative : Bool) (magnitude : ℕ) : BitVec 64 :=
  packComponents Format.binary64 (sign negative) (BitVec.ofNat 11 (magnitude / 2 ^ 52))
    (BitVec.ofNat 52 magnitude)

variable {negative : Bool} {magnitude : ℕ}

lemma toNat_packComponents (s : Sign) (e : BitVec 11) (m : BitVec 52) :
    (packComponents Format.binary64 s e m).toNat =
      s.toBitVec.toNat * 2 ^ 63 + (e.toNat * 2 ^ 52 + m.toNat) := by
  have h : packComponents Format.binary64 s e m = s.toBitVec ++ e ++ m := rfl
  rw [h, BitVec.toNat_append, BitVec.toNat_append, ← Nat.shiftLeft_add_eq_or_of_lt m.isLt,
    ← Nat.shiftLeft_add_eq_or_of_lt e.isLt, Nat.shiftLeft_eq, Nat.shiftLeft_eq]
  ring

lemma toNat_word (h : magnitude < 2 ^ 63) :
    (word negative magnitude).toNat = (if negative then 2 ^ 63 else 0) + magnitude := by
  have hsign : (sign negative).toBitVec.toNat * 2 ^ 63 = if negative then 2 ^ 63 else 0 := by
    cases negative <;> rfl
  rw [word, toNat_packComponents, hsign, BitVec.toNat_ofNat, BitVec.toNat_ofNat]
  omega

lemma exists_word (w : BitVec 64) :
    ∃ negative magnitude, magnitude < 2 ^ 63 ∧ w = word negative magnitude := by
  have hw := w.isLt
  refine ⟨decide (2 ^ 63 ≤ w.toNat), w.toNat % 2 ^ 63, Nat.mod_lt _ (by norm_num), ?_⟩
  refine BitVec.eq_of_toNat_eq ?_
  rw [toNat_word (Nat.mod_lt _ (by norm_num))]
  by_cases h : 2 ^ 63 ≤ w.toNat <;> simp only [h, decide_true, decide_false, if_true, if_false,
    Bool.false_eq_true] <;> omega

/-- A magnitude below that of infinity has an exponent field that is not the largest. -/
lemma exponent_ne_iff (h : magnitude < 2 ^ 63) :
    BitVec.ofNat 11 (magnitude / 2 ^ 52) ≠ -1#11 ↔ magnitude < double.infinity := by
  have hinfinity : double.infinity = 2047 * 2 ^ 52 := rfl
  have htop : (-1#11).toNat = 2047 := rfl
  rw [Ne, ← BitVec.toNat_inj, BitVec.toNat_ofNat, htop, hinfinity]
  omega

lemma lt_of_lt_infinity (h : magnitude < double.infinity) : magnitude < 2 ^ 63 :=
  h.trans (by decide)

/-! ### Packing and unpacking -/

lemma unpack_word : unpack Format.binary64 (word negative magnitude) =
    ofFields (sign negative) (BitVec.ofNat 11 (magnitude / 2 ^ 52)) (BitVec.ofNat 52 magnitude) :=
  unpack_packComponents _ _ _

/-- Fields that stand for a number are those of its word. -/
lemma pack_ofFields {s : Sign} {e : BitVec 11} {m : BitVec 52} (he : e ≠ -1#11) :
    pack Format.binary64 (ofFields s e m) = packComponents Format.binary64 s e m := by
  have hm := m.isLt
  have he' : e.toNat < 2047 := by
    have hne : e.toNat ≠ 2047 := fun h => he (BitVec.eq_of_toNat_eq h)
    have hlt := e.isLt
    omega
  rw [ofFields, if_neg he]
  split
  · next hzero =>
    rw [hzero]
    split
    · next hnone => rw [hnone]; rfl
    · rw [pack_finite ⟨by omega, le_rfl, by norm_num, Or.inr rfl⟩, if_neg (by omega),
        BitVec.ofNat_toNat, BitVec.setWidth_eq]
  · next hzero =>
    have hpos : e.toNat ≠ 0 := fun h => hzero (BitVec.eq_of_toNat_eq h)
    rw [pack_finite ⟨by omega, by omega, by omega, Or.inl (by omega)⟩, if_pos (by omega)]
    congr 1
    · refine BitVec.eq_of_toNat_eq ?_
      rw [BitVec.toNat_ofNat]
      omega
    · refine BitVec.eq_of_toNat_eq ?_
      rw [BitVec.toNat_ofNat]
      omega

lemma neg_ofFields {s : Sign} {e : BitVec 11} {m : BitVec 52} :
    (ofFields s e m).neg = ofFields (-s) e m := by
  unfold ofFields
  split
  · split <;> rfl
  · split
    · split <;> rfl
    · rfl

/-- A number has the word that it is read from. -/
lemma pack_unpack_word (h : magnitude < double.infinity) :
    pack Format.binary64 (unpack Format.binary64 (word negative magnitude)) =
      word negative magnitude := by
  rw [unpack_word]
  exact pack_ofFields ((exponent_ne_iff (lt_of_lt_infinity h)).mpr h)

/-- The opposite of a number has the word with the other sign. -/
lemma pack_neg_unpack_word (h : magnitude < double.infinity) :
    pack Format.binary64 (unpack Format.binary64 (word negative magnitude)).neg =
      word (!negative) magnitude := by
  have hsign : -sign negative = sign !negative := by cases negative <;> rfl
  rw [unpack_word, neg_ofFields, hsign]
  exact pack_ofFields ((exponent_ne_iff (lt_of_lt_infinity h)).mpr h)

/-! ### Values -/

/-- The value of a word is the multiple of the unit that its magnitude stands for. -/
lemma decode_word (h : magnitude < double.infinity) :
    double.decode (word negative magnitude).toNat =
      .finite negative (double.units magnitude) (2 ^ double.unitExponent) := by
  have hlt := lt_of_lt_infinity h
  have hplace : Nat.pow 2 (double.exponentBits + double.fractionBits) = 2 ^ 63 := rfl
  have hsign : decide (((if negative then 2 ^ 63 else 0) + magnitude) / 2 ^ 63 % 2 = 1) =
      negative := by
    cases negative
    · exact decide_eq_false (by simp only [Bool.false_eq_true, if_false]; omega)
    · exact decide_eq_true (by simp only [if_true]; omega)
  have hmagnitude : ((if negative then 2 ^ 63 else 0) + magnitude) % 2 ^ 63 = magnitude := by
    cases negative <;> simp only [Bool.false_eq_true, if_false, if_true] <;> omega
  rw [toNat_word hlt, BinaryFormat.decode]
  simp only [hplace, hsign, hmagnitude, if_pos h]
  rw [Nat.pow_eq]

/-- The value of a finite double is a number of the format. -/
lemma exists_value_eq_finite {x : Float} (h : x.isFinite = true) :
    ∃ negative, ∃ magnitude < double.infinity,
      Printable.value x = .finite negative (double.units magnitude) (2 ^ double.unitExponent) := by
  obtain ⟨negative, magnitude, hlt, hword⟩ := exists_word x.toBits.toBitVec
  have hfinite : (unpack Format.binary64 (word negative magnitude)).isFinite = true := hword ▸ h
  have hmagnitude : magnitude < double.infinity := by
    rw [unpack_word] at hfinite
    refine (exponent_ne_iff hlt).mp fun htop => ?_
    rw [ofFields, if_pos htop] at hfinite
    split at hfinite <;> cases hfinite
  refine ⟨negative, magnitude, hmagnitude, ?_⟩
  rw [← decode_word hmagnitude, ← hword]
  rfl

lemma toBitVec_toUInt64 (h : magnitude < double.infinity) :
    magnitude.toUInt64.toBitVec = word false magnitude := by
  have hlt := lt_of_lt_infinity h
  refine BitVec.eq_of_toNat_eq ?_
  have htoNat : magnitude.toUInt64.toBitVec.toNat = magnitude % 2 ^ 64 := UInt64.toNat_ofNat'
  rw [htoNat, toNat_word hlt]
  simp only [Bool.false_eq_true, if_false]
  omega

/-- Every number of the format is the value of a double. -/
lemma value_ofBits (h : magnitude < double.infinity) :
    Printable.value (Float.ofBits magnitude.toUInt64) =
      .finite false (double.units magnitude) (2 ^ double.unitExponent) := by
  have hbits : (Float.ofBits magnitude.toUInt64).toBits.toBitVec = word false magnitude := by
    rw [← pack_unpack_word h, ← toBitVec_toUInt64 h]
    rfl
  rw [← decode_word h, ← hbits]
  rfl

/-- The opposite of a number of the format is the value of the opposite double. -/
lemma value_neg_ofBits (h : magnitude < double.infinity) :
    Printable.value (-Float.ofBits magnitude.toUInt64) =
      .finite true (double.units magnitude) (2 ^ double.unitExponent) := by
  have hbits : (-Float.ofBits magnitude.toUInt64).toBits.toBitVec = word true magnitude := by
    have hneg : (-Float.ofBits magnitude.toUInt64).toBits.toBitVec =
        pack Format.binary64 (unpack Format.binary64 (pack Format.binary64
          (unpack Format.binary64 magnitude.toUInt64.toBitVec))).neg := rfl
    rw [hneg, toBitVec_toUInt64 h, pack_unpack_word h, pack_neg_unpack_word h]
    rfl
  rw [← decode_word h, ← hbits]
  rfl

end MatrixReckoner.Double
