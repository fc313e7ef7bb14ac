import Mathlib
import MatrixReckoner.Element.Floating

/-!
Finite doubles as rational numbers, and their words.

* `Double.Canonical`: the significands and exponents of doubles other than zero.
* `Double.Represents`: the rational number that a finite double stands for, once its word is
  unpacked.
* `Double.ofFields`: what a word stands for, by its three fields.
* `Double.isFinite_iff`: finite doubles are those that stand for a rational number.
* `Double.unpack_pack`: such a double is not changed by packing it into a word.
-/

namespace MatrixReckoner.Double

open Float.Model (Format UnpackedFloat)
open Float.Model.UnpackedFloat

/-- A double other than zero has 53 significant bits, or fewer at the smallest exponent. -/
structure Canonical (m : ℕ) (e : ℤ) : Prop where
  lt : m < 2 ^ 53
  min_le : -1074 ≤ e
  le_max : e ≤ 971
  normal_or : 2 ^ 52 ≤ m ∨ e = -1074

/-- The unpacked double stands for the rational number. -/
inductive Represents : UnpackedFloat → ℚ → Prop where
  | zero (s : Sign) : Represents (.zero s) 0
  | finite {s : Sign} {m : ℕ} {e : ℤ} {hm : 0 < m} (h : Canonical m e) :
      Represents (.finite s m e hm) (s.apply m * 2 ^ e)

/-! ### Fields of a word -/

lemma exponentBias_binary64 : Format.binary64.exponentBias = 1023 := rfl

lemma unpackSign_packComponents {f : Format} (s : Sign) (e : BitVec f.exponentBits)
    (m : BitVec f.mantissaBitsWithoutImplicit) :
    Sign.ofBitVec (unpackSign (packComponents f s e m)) = s := by
  have h : unpackSign (packComponents f s e m) = s.toBitVec := by
    ext i hi
    obtain rfl : i = 0 := by omega
    simp [unpackSign, packComponents, BitVec.getLsbD_append, BitVec.getElem_append]
  rw [h]
  cases s <;> rfl

/-- The significand of a normal number has a leading one that is not stored. -/
lemma toNat_one_append (m : BitVec 52) : (1#1 ++ m).toNat = 2 ^ 52 + m.toNat := by
  rw [BitVec.toNat_append, ← Nat.shiftLeft_add_eq_or_of_lt m.isLt]
  rfl

lemma toNat_pos {m : BitVec 52} (h : m ≠ 0#52) : 0 < m.toNat :=
  Nat.pos_of_ne_zero fun h' => h (BitVec.eq_of_toNat_eq h')

/-- What a word stands for, by its sign, its exponent and its stored significand. -/
def ofFields (s : Sign) (e : BitVec 11) (m : BitVec 52) : UnpackedFloat :=
  if e = -1#11 then if m = 0#52 then .infinity s else .notANumber
  else if e = 0#11 then
    if h : m = 0#52 then .zero s else .finite s m.toNat (-1074) (toNat_pos h)
  else .finite s (2 ^ 52 + m.toNat) (e.toNat - 1075) (by positivity)

lemma unpack_eq_ofFields (w : BitVec 64) : unpack Format.binary64 w =
    ofFields (Sign.ofBitVec (@unpackSign Format.binary64 w)) (@unpackExponent Format.binary64 w)
      (@unpackMantissa Format.binary64 w) := by
  unfold unpack ofFields
  simp only [exponentBias_binary64, toNat_one_append]
  split
  · rfl
  · split
    · next he =>
      simp only [he]
      rfl
    · rfl

lemma unpack_packComponents (s : Sign) (e : BitVec 11) (m : BitVec 52) :
    unpack Format.binary64 (packComponents Format.binary64 s e m) = ofFields s e m := by
  rw [unpack_eq_ofFields, unpackMantissa_packComponents, unpackExponent_packComponents,
    unpackSign_packComponents]

/-- The largest exponent field is that of the infinities and of what is not a number. -/
lemma exists_represents_ofFields {s : Sign} {e : BitVec 11} {m : BitVec 52}
    (h : (ofFields s e m).isFinite = true) : ∃ r, Represents (ofFields s e m) r := by
  have hm := m.isLt
  have he := e.isLt
  unfold ofFields at h ⊢
  split
  · next hinfinite =>
    rw [if_pos hinfinite] at h
    split at h <;> cases h
  · next hfinite =>
    have hfinite' : e.toNat ≠ 2047 := fun h => hfinite (BitVec.eq_of_toNat_eq h)
    split
    · split
      · exact ⟨_, .zero s⟩
      · exact ⟨_, .finite ⟨by omega, by omega, by omega, Or.inr rfl⟩⟩
    · next hzero =>
      have hzero' : e.toNat ≠ 0 := fun h => hzero (BitVec.eq_of_toNat_eq h)
      exact ⟨_, .finite ⟨by omega, by omega, by omega, Or.inl (by omega)⟩⟩

lemma Represents.isFinite {u : UnpackedFloat} {r : ℚ} (h : Represents u r) : u.isFinite = true := by
  cases h <;> rfl

/-- Finite doubles stand for rational numbers. -/
lemma isFinite_iff {x : Float} : x.isFinite = true ↔ ∃ r, Represents x.toModel.unpack r := by
  change x.toModel.unpack.isFinite = true ↔ _
  refine ⟨?_, ?_⟩
  · intro h
    rw [Float.Model.unpack, unpack_eq_ofFields] at h ⊢
    exact exists_represents_ofFields h
  · rintro ⟨r, h⟩
    exact h.isFinite

/-! ### Words of finite doubles -/

variable {s : Sign} {m : ℕ} {e : ℤ} {hm : 0 < m}

/-- The exponent field of a number with 53 significant bits is biased; all others have zero. -/
lemma pack_finite (h : Canonical m e) :
    pack Format.binary64 (.finite s m e hm) = packComponents Format.binary64 s
      (if 2 ^ 52 ≤ m then BitVec.ofNat 11 (e + 1075).toNat else 0#11) (BitVec.ofNat 52 m) := by
  have hmax := h.le_max
  have hlog : m.log2 + 1 = Format.binary64.mantissaBits ↔ 2 ^ 52 ≤ m := by
    have hlog2 := Nat.log2_eq_iff (n := m) (k := 52) (by omega)
    have hbits : Format.binary64.mantissaBits = 53 := rfl
    have hlt := h.lt
    omega
  have hbias : e + (1023 : ℕ) + (52 : ℕ) = e + 1075 := by omega
  unfold pack
  simp only [exponentBias_binary64, hlog, hbias]
  rw [if_neg (by omega)]
  split <;> rfl

lemma ofFields_of_normal (h : Canonical m e) (hn : 2 ^ 52 ≤ m) :
    ofFields s (BitVec.ofNat 11 (e + 1075).toNat) (BitVec.ofNat 52 m) = .finite s m e hm := by
  obtain ⟨hlt, hmin, hmax, -⟩ := h
  have hexponent : (BitVec.ofNat 11 (e + 1075).toNat).toNat = (e + 1075).toNat := by
    rw [BitVec.toNat_ofNat, Nat.mod_eq_of_lt (by omega)]
  have hsignificand : (BitVec.ofNat 52 m).toNat = m - 2 ^ 52 := by
    rw [BitVec.toNat_ofNat]
    omega
  have hne : ∀ b : BitVec 11, (e + 1075).toNat ≠ b.toNat →
      BitVec.ofNat 11 (e + 1075).toNat ≠ b := by
    rintro b hb rfl
    exact hb hexponent.symm
  have htop : (-1#11).toNat = 2047 := rfl
  have hbottom : (0#11).toNat = 0 := rfl
  rw [ofFields, if_neg (hne _ (by omega)), if_neg (hne _ (by omega))]
  simp only [hexponent, hsignificand, finite.injEq, true_and]
  omega

lemma ofFields_of_subnormal (hn : m < 2 ^ 52) :
    ofFields s 0#11 (BitVec.ofNat 52 m) = .finite s m (-1074) hm := by
  have hsignificand : (BitVec.ofNat 52 m).toNat = m := by
    rw [BitVec.toNat_ofNat, Nat.mod_eq_of_lt hn]
  have hne : BitVec.ofNat 52 m ≠ 0#52 := by
    intro h
    rw [h] at hsignificand
    exact hm.ne hsignificand
  rw [ofFields, if_neg (by decide), if_pos rfl, dif_neg hne]
  simp only [hsignificand]

/-- **A double that stands for a rational number is that of its word.** -/
theorem unpack_pack {u : UnpackedFloat} {r : ℚ} (h : Represents u r) :
    (Float.Model.pack u).unpack = u := by
  cases h with
  | zero s => exact unpack_packComponents s 0#11 0#52
  | @finite s m e hm h =>
    have hpack := congrArg (unpack Format.binary64) (@pack_finite s m e hm h)
    rw [unpack_packComponents] at hpack
    refine hpack.trans ?_
    by_cases hn : 2 ^ 52 ≤ m
    · rw [if_pos hn]
      exact ofFields_of_normal h hn
    · obtain rfl : e = -1074 := h.normal_or.resolve_left hn
      rw [if_neg hn]
      exact ofFields_of_subnormal (Nat.not_le.mp hn)

end MatrixReckoner.Double
