import Mathlib.Data.List.TakeWhile
import Mathlib.Tactic
import MatrixReckoner.Proofs.Expression.Tree

/-!
The scanners take exactly the texts of numbers, orders and exponents.

* `Cursor.Takes`: the text between two places of a line.
* `Cursor.span_eq_iff`: a run of characters of a class is the longest one.
* `Cursor.signedNumber_eq_ok_iff`, `Cursor.order_eq_some_iff`, `Cursor.exponent_eq_some_iff`: the
  longest number, order and exponent.
* `Machine.exponent_eq`, `Machine.exists_of_exponent_eq_ok`: a power and its exponent.
-/

namespace MatrixReckoner

open Expression

namespace Cursor

variable {c c' c'' : Cursor} {u v : List Char}

/-! ### The text between two places -/

/-- The text `u` stands between the places `c` and `c'` of a line. -/
def Takes (c : Cursor) (u : List Char) (c' : Cursor) : Prop :=
  c.rest = u ++ c'.rest ∧ c'.column = c.column + u.length

lemma Takes.refl (c : Cursor) : c.Takes [] c := ⟨rfl, rfl⟩

lemma Takes.append (h : c.Takes u c') (h' : c'.Takes v c'') : c.Takes (u ++ v) c'' := by
  obtain ⟨hr, hc⟩ := h
  obtain ⟨hr', hc'⟩ := h'
  refine ⟨by rw [hr, hr', List.append_assoc], ?_⟩
  rw [hc', hc, List.length_append, Nat.add_assoc]

/-- A text taken in two parts. -/
lemma takes_append_iff :
    c.Takes (u ++ v) c'' ↔ ∃ c', c.Takes u c' ∧ c'.Takes v c'' := by
  refine ⟨fun ⟨hr, hc⟩ => ?_, fun ⟨_, h, h'⟩ => h.append h'⟩
  refine ⟨⟨v ++ c''.rest, c.column + u.length⟩, ⟨?_, rfl⟩, rfl, ?_⟩
  · rw [hr, List.append_assoc]
  · rw [hc, List.length_append, Nat.add_assoc]

lemma takes_singleton_iff {ch : Char} :
    c.Takes [ch] c' ↔ c.rest = ch :: c'.rest ∧ c'.column = c.column + 1 :=
  Iff.rfl

/-- The places behind one text are one place. -/
lemma Takes.unique (h : c.Takes u c') (h' : c.Takes u c'') : c' = c'' := by
  obtain ⟨hr, hc⟩ := h
  obtain ⟨hr', hc'⟩ := h'
  have hrest : c'.rest = c''.rest := List.append_cancel_left (hr.symm.trans hr')
  cases c'; cases c''
  simp_all

/-! ### Runs of characters -/

/-- The span of a class is the longest run of its characters. -/
theorem span_eq_iff {p : Char → Bool} :
    c.span p = (u, c') ↔
      c.Takes u c' ∧ (∀ ch ∈ u, p ch) ∧ ∀ ch ∈ c'.rest.head?, p ch = false := by
  refine ⟨?_, ?_⟩
  · intro h
    rw [span, Prod.mk.injEq] at h
    obtain ⟨rfl, rfl⟩ := h
    refine ⟨⟨List.takeWhile_append_dropWhile.symm, rfl⟩, fun ch => List.mem_takeWhile_imp, ?_⟩
    intro ch hch
    have h := List.head?_dropWhile_not p c.rest
    rwa [Option.mem_def.mp hch] at h
  · rintro ⟨⟨hr, hc⟩, hu, hv⟩
    have htake : c'.rest.takeWhile p = [] := by
      cases hrest : c'.rest with
      | nil => rfl
      | cons ch rest => simp [hv ch (by simp [hrest])]
    have hdrop : c'.rest.dropWhile p = c'.rest := by
      cases hrest : c'.rest with
      | nil => rfl
      | cons ch rest => simp [hv ch (by simp [hrest])]
    rw [span, hr, List.takeWhile_append_of_pos hu, List.dropWhile_append_of_pos hu, htake, hdrop,
      List.append_nil, ← hc]

/-- Blanks are skipped up to the first character that is none. -/
lemma skipBlanks_eq_iff :
    c.skipBlanks = c' ↔
      ∃ b, Blanks b ∧ c.Takes b c' ∧ ∀ ch ∈ c'.rest.head?, isInlineBlank ch = false := by
  refine ⟨?_, ?_⟩
  · rintro rfl
    obtain ⟨ht, hb, hv⟩ := span_eq_iff.mp (Prod.eta (c.span isInlineBlank)).symm
    exact ⟨_, hb, ht, hv⟩
  · rintro ⟨b, hb, ht, hv⟩
    rw [skipBlanks, span_eq_iff.mpr ⟨ht, hb, hv⟩]

/-- Blanks are skipped up to a character that is none. -/
lemma skipBlanks_eq_of_cons {b rest : List Char} {ch : Char} (hb : Blanks b) (ht : c.Takes b c')
    (hr : c'.rest = ch :: rest) (hch : isInlineBlank ch = false) : c.skipBlanks = c' := by
  refine skipBlanks_eq_iff.mpr ⟨b, hb, ht, ?_⟩
  rw [hr]
  rintro _ ⟨⟩
  exact hch

/-- Blanks before a place do not change what is skipped from it on. -/
lemma Takes.skipBlanks_eq {b : List Char} (h : c.Takes b c') (hb : Blanks b) :
    c.skipBlanks = c'.skipBlanks := by
  obtain ⟨b', hb', ht, hv⟩ := skipBlanks_eq_iff.mp (rfl : c'.skipBlanks = c'.skipBlanks)
  exact skipBlanks_eq_iff.mpr
    ⟨b ++ b', fun ch hch => (List.mem_append.mp hch).elim (hb ch) (hb' ch), h.append ht, hv⟩

/-! ### Numbers -/

/-- A character that starts a number is a digit or a point. -/
lemma startsNumber_iff {ch : Char} : startsNumber ch ↔ ch.isDigit ∨ ch = '.' := by
  simp [startsNumber]

/-- A character that starts a number is no blank. -/
lemma isBlank_of_startsNumber {ch : Char} (h : startsNumber ch) : isBlank ch = false := by
  have hd : (48 ≤ ch.toNat ∧ ch.toNat ≤ 57) ∨ ch.toNat = 46 := by
    simp only [startsNumber, Bool.or_eq_true, beq_iff_eq, Char.isDigit, Bool.and_eq_true,
      decide_eq_true_eq, ge_iff_le, UInt32.le_iff_toNat_le] at h
    rcases h with h | rfl
    · exact Or.inl h
    · exact Or.inr rfl
  simp only [isBlank, Bool.and_eq_false_iff, Bool.or_eq_false_iff, decide_eq_false_iff_not]
  omega

lemma isInlineBlank_eq_false {ch : Char} (h : isBlank ch = false) : isInlineBlank ch = false := by
  rw [isInlineBlank, h, Bool.false_and]

lemma isInlineBlank_of_startsNumber {ch : Char} (h : startsNumber ch) :
    isInlineBlank ch = false :=
  isInlineBlank_eq_false (isBlank_of_startsNumber h)

lemma toDouble?_eq_some_iff {n : Numeral} {x : Float} :
    n.toDouble? = some x ↔ ¬(n.whole = [] ∧ n.fraction = []) ∧ n.toDouble = x := by
  rw [Numeral.toDouble?]
  split <;> simp_all

/-- A numeral is the digits before a point and behind it, or without a point, as far as they go. -/
lemma digits_of_numeral_eq {n : Numeral} (h : c.numeral = (n, c')) :
    Digits n.whole ∧ Digits n.fraction ∧
      (c.Takes (n.whole ++ '.' :: n.fraction) c' ∧ (∀ ch ∈ c'.rest.head?, ch.isDigit = false) ∨
        n.fraction = [] ∧ c.Takes n.whole c' ∧
          ∀ ch ∈ c'.rest.head?, ch.isDigit = false ∧ ch ≠ '.') := by
  obtain ⟨⟨w, c₁⟩, hc₁⟩ : ∃ s, c.span Char.isDigit = s := ⟨_, rfl⟩
  obtain ⟨ht, hw, hv⟩ := span_eq_iff.mp hc₁
  rw [numeral, hc₁] at h
  dsimp only at h
  split at h
  · next rest hrest =>
    obtain ⟨⟨f, c₂⟩, hc₂⟩ : ∃ s, (Cursor.mk rest (c₁.column + 1)).span Char.isDigit = s := ⟨_, rfl⟩
    obtain ⟨ht', hf, hv'⟩ := span_eq_iff.mp hc₂
    rw [hc₂] at h
    cases h
    have hpoint : c₁.Takes ['.'] ⟨rest, c₁.column + 1⟩ := takes_singleton_iff.mpr ⟨hrest, rfl⟩
    exact ⟨hw, hf, Or.inl ⟨ht.append (hpoint.append ht'), hv'⟩⟩
  · next hne =>
    cases h
    refine ⟨hw, by simp [Digits], Or.inr ⟨rfl, ht, fun ch hch => ⟨hv ch hch, ?_⟩⟩⟩
    rintro rfl
    obtain ⟨rest, hrest⟩ := List.head?_eq_some_iff.mp hch
    exact hne rest hrest

lemma numeral_eq_of_point {n : Numeral} (hw : Digits n.whole) (hf : Digits n.fraction)
    (ht : c.Takes (n.whole ++ '.' :: n.fraction) c')
    (hv : ∀ ch ∈ c'.rest.head?, ch.isDigit = false) : c.numeral = (n, c') := by
  obtain ⟨c₁, ht₁, ht⟩ := takes_append_iff.mp ht
  obtain ⟨c₂, ht₂, ht₃⟩ := takes_append_iff (u := ['.']).mp ht
  obtain ⟨hr, hcol⟩ := takes_singleton_iff.mp ht₂
  have hspan : c.span Char.isDigit = (n.whole, c₁) :=
    span_eq_iff.mpr ⟨ht₁, hw, by rw [hr]; rintro _ ⟨⟩; rfl⟩
  have hspan' : c₂.span Char.isDigit = (n.fraction, c') := span_eq_iff.mpr ⟨ht₃, hf, hv⟩
  rw [numeral, hspan]
  dsimp only
  rw [hr, ← hcol]
  exact congrArg (fun s => (Numeral.mk n.whole s.1, s.2)) hspan'

lemma numeral_eq_of_whole {n : Numeral} (hw : Digits n.whole) (hf : n.fraction = [])
    (ht : c.Takes n.whole c') (hv : ∀ ch ∈ c'.rest.head?, ch.isDigit = false ∧ ch ≠ '.') :
    c.numeral = (n, c') := by
  have hspan : c.span Char.isDigit = (n.whole, c') :=
    span_eq_iff.mpr ⟨ht, hw, fun ch hch => (hv ch hch).1⟩
  rw [numeral, hspan]
  dsimp only
  split
  · next rest hrest => exact absurd rfl (hv '.' (by rw [hrest]; rfl)).2
  · rw [← hf]

/-- Only a digit or a point continues digits. -/
lemma continues_iff_of_digits {w : List Char} {ch : Char} (h : Digits w) :
    Continues w ch ↔ ch.isDigit ∨ ch = '.' := by
  have hpoint : '.' ∉ w := fun hmem => by simpa using h '.' hmem
  simp [Continues, hpoint]

/-- Only a digit continues a number with a point. -/
lemma continues_point_iff {w f : List Char} {ch : Char} :
    Continues (w ++ '.' :: f) ch ↔ ch.isDigit := by
  simp [Continues]

/-- A numeral with a digit is read from the longest of its texts. -/
lemma numeral_eq_iff_spelled {n : Numeral} (hn : ¬(n.whole = [] ∧ n.fraction = [])) :
    c.numeral = (n, c') ↔
      ∃ u, NumeralSpelled n u ∧ c.Takes u c' ∧ ∀ ch ∈ c'.rest.head?, ¬ Continues u ch := by
  refine ⟨fun h => ?_, ?_⟩
  · obtain ⟨hw, hf, ⟨ht, hv⟩ | ⟨hnil, ht, hv⟩⟩ := digits_of_numeral_eq h
    · refine ⟨_, .point hw hf (by simpa using hn), ht, fun ch hch => ?_⟩
      rw [continues_point_iff, hv ch hch]
      exact Bool.false_ne_true
    · obtain ⟨w, f⟩ := n
      dsimp only at *
      subst hnil
      refine ⟨w, .whole hw (by simpa using hn), ht, fun ch hch => ?_⟩
      rw [continues_iff_of_digits hw, (hv ch hch).1]
      simpa using (hv ch hch).2
  · rintro ⟨u, hu, ht, hv⟩
    cases hu with
    | whole hw _ =>
        refine numeral_eq_of_whole hw rfl ht fun ch hch => ?_
        simpa [continues_iff_of_digits hw] using hv ch hch
    | point hw hf _ =>
        refine numeral_eq_of_point hw hf ht fun ch hch => ?_
        simpa [continues_point_iff] using hv ch hch

/-- A spelled numeral has a digit. -/
lemma ne_nil_of_spelled {n : Numeral} (h : NumeralSpelled n u) :
    ¬(n.whole = [] ∧ n.fraction = []) := by
  cases h with
  | whole _ hne => exact fun h => hne h.1
  | point _ _ hne => exact fun h => hne (List.append_eq_nil_iff.mpr h)

/-- A number is the longest text of a numeral, and it fails only without a digit. -/
theorem signedNumber_eq_ok_iff {negative : Bool} {start : ℕ} {x : Float} :
    c.signedNumber negative start = .ok (x, c') ↔
      ∃ n u, NumeralSpelled n u ∧ c.Takes u c' ∧ (∀ ch ∈ c'.rest.head?, ¬ Continues u ch) ∧
        x = (Decimal.mk negative n).value := by
  obtain ⟨⟨n, c₁⟩, hc₁⟩ : ∃ s, c.numeral = s := ⟨_, rfl⟩
  rw [signedNumber, hc₁]
  dsimp only
  refine ⟨?_, ?_⟩
  · intro h
    split at h
    · next y hy =>
      obtain ⟨hn, rfl⟩ := toDouble?_eq_some_iff.mp hy
      cases h
      obtain ⟨u, hu, ht, hv⟩ := (numeral_eq_iff_spelled hn).mp hc₁
      exact ⟨n, u, hu, ht, hv, rfl⟩
    · cases h
  · rintro ⟨m, u, hu, ht, hv, rfl⟩
    have hread := (numeral_eq_iff_spelled (ne_nil_of_spelled hu)).mpr ⟨u, hu, ht, hv⟩
    obtain ⟨rfl, rfl⟩ := Prod.mk.inj (hc₁.symm.trans hread)
    rw [toDouble?_eq_some_iff.mpr ⟨ne_nil_of_spelled hu, rfl⟩]
    rfl

/-- A spelled numeral starts with a digit or a point. -/
lemma exists_cons_of_numeralSpelled {n : Numeral} (h : NumeralSpelled n u) :
    ∃ ch w, u = ch :: w ∧ startsNumber ch := by
  cases h with
  | whole hw hne =>
      obtain ⟨ch, w, rfl⟩ := List.exists_cons_of_ne_nil hne
      exact ⟨ch, w, rfl, startsNumber_iff.mpr (Or.inl (hw ch (by simp)))⟩
  | @point w f hw _ _ =>
      cases w with
      | nil => exact ⟨'.', f, rfl, by decide⟩
      | cons ch w => exact ⟨ch, w ++ '.' :: f, rfl, startsNumber_iff.mpr (Or.inl (hw ch (by simp)))⟩

/-! ### Orders and exponents -/

/-- An order is the longest run of digits, with a value of 64 bits. -/
theorem order_eq_some_iff {n : ℕ} :
    c.order = (some n, c') ↔
      ∃ w, Digits w ∧ w ≠ [] ∧ c.Takes w c' ∧ (∀ ch ∈ c'.rest.head?, ch.isDigit = false) ∧
        n = Nat.ofDigitChars 10 w 0 ∧ n < 2 ^ 64 := by
  obtain ⟨⟨w, c₁⟩, hc₁⟩ : ∃ s, c.span Char.isDigit = s := ⟨_, rfl⟩
  obtain ⟨ht, hw, hv⟩ := span_eq_iff.mp hc₁
  have hmax : ∀ m : ℕ, m ≤ maxOrder ↔ m < 2 ^ 64 := fun m => by
    rw [maxOrder, Nat.pow_eq, Nat.le_sub_one_iff_lt (by positivity)]
  rw [order, hc₁]
  simp only [hmax]
  refine ⟨?_, ?_⟩
  · intro h
    split at h
    · next hd =>
      cases h
      exact ⟨w, hw, hd.1, ht, hv, rfl, hd.2⟩
    · cases h
  · rintro ⟨w', hw', hne, ht', hv', rfl, hlt⟩
    have hread := span_eq_iff.mpr ⟨ht', hw', hv'⟩
    obtain ⟨rfl, rfl⟩ := Prod.mk.inj (hc₁.symm.trans hread)
    rw [if_pos ⟨hne, hlt⟩]

/-- The digits of an exponent behind its sign are as many as there are. -/
lemma unsigned_eq_some_iff {σ k : ℤ} :
    exponent.unsigned c σ = (some k, c') ↔
      ∃ w, Digits w ∧ w ≠ [] ∧ c.Takes w c' ∧ (∀ ch ∈ c'.rest.head?, ch.isDigit = false) ∧
        k = σ * Nat.ofDigitChars 10 w 0 ∧ -2 ^ 31 ≤ k ∧ k < 2 ^ 31 := by
  obtain ⟨⟨w, c₁⟩, hc₁⟩ : ∃ s, c.span Char.isDigit = s := ⟨_, rfl⟩
  obtain ⟨ht, hw, hv⟩ := span_eq_iff.mp hc₁
  rw [exponent.unsigned, hc₁]
  dsimp only
  refine ⟨?_, ?_⟩
  · intro h
    split at h
    · next hd =>
      cases h
      exact ⟨w, hw, hd.1, ht, hv, rfl, hd.2⟩
    · cases h
  · rintro ⟨w', hw', hne, ht', hv', rfl, hk⟩
    have hread := span_eq_iff.mpr ⟨ht', hw', hv'⟩
    obtain ⟨rfl, rfl⟩ := Prod.mk.inj (hc₁.symm.trans hread)
    rw [if_pos ⟨hne, hk⟩]

/-- An exponent is a sign or none and the longest run of digits, with a value of 32 bits. -/
theorem exponent_eq_some_iff {k : ℤ} :
    c.exponent = (some k, c') ↔
      ∃ u, (Exponent.integer k).Spelled u ∧ c.Takes u c' ∧
        ∀ ch ∈ c'.rest.head?, ch.isDigit = false := by
  refine ⟨?_, ?_⟩
  · intro h
    have key : ∀ {σ : ℤ} {s : List Char} {c₁ : Cursor}, SignSpelled σ s → c.Takes s c₁ →
        exponent.unsigned c₁ σ = (some k, c') → ∃ u, (Exponent.integer k).Spelled u ∧
          c.Takes u c' ∧ ∀ ch ∈ c'.rest.head?, ch.isDigit = false := by
      intro σ s c₁ hs ht h
      obtain ⟨w, hw, hne, ht', hv, hk, hle, hlt⟩ := unsigned_eq_some_iff.mp h
      exact ⟨s ++ w, .integer hs hw hne hk hle hlt, ht.append ht', hv⟩
    rw [exponent] at h
    split at h
    · next rest hrest => exact key .minus (takes_singleton_iff.mpr ⟨hrest, rfl⟩) h
    · next rest hrest => exact key .plus (takes_singleton_iff.mpr ⟨hrest, rfl⟩) h
    · exact key .none (.refl c) h
  · rintro ⟨u, hu, ht, hv⟩
    cases hu with
    | @integer σ _ s w hs hw hne hk hle hlt =>
        obtain ⟨c₁, ht₁, ht₂⟩ := takes_append_iff.mp ht
        have hread := unsigned_eq_some_iff.mpr ⟨w, hw, hne, ht₂, hv, hk, hle, hlt⟩
        cases hs with
        | none =>
            obtain rfl := (Takes.refl c).unique ht₁
            obtain ⟨d, w, rfl⟩ := List.exists_cons_of_ne_nil hne
            have hd := hw d (by simp)
            rw [exponent, ht₂.1]
            split
            · next heq => cases heq; exact absurd hd (by decide)
            · next heq => cases heq; exact absurd hd (by decide)
            · exact hread
        | plus =>
            obtain ⟨hr, hcol⟩ := takes_singleton_iff.mp ht₁
            rw [exponent, hr]
            simpa [← hcol] using hread
        | minus =>
            obtain ⟨hr, hcol⟩ := takes_singleton_iff.mp ht₁
            rw [exponent, hr]
            simpa [← hcol] using hread

end Cursor

/-! ### Powers -/

namespace Machine

variable {c c' : Cursor} {position : ℕ} {a a' : DenseMatrix Float}

/-- A spelled exponent, blanks before it skipped, is applied to the matrix. -/
theorem exponent_eq {b w : List Char} {e : Exponent} (hb : Blanks b) (he : e.Spelled w)
    (ht : c.Takes (b ++ w) c') (hdigit : ∀ ch ∈ c'.rest.head?, ch.isDigit = false) :
    exponent position c a = ((e.apply a).mapError .matrix).map (·, c') := by
  obtain ⟨c₁, ht₁, ht₂⟩ := Cursor.takes_append_iff.mp ht
  cases he with
  | transpose =>
      obtain ⟨hr, hcol⟩ := Cursor.takes_singleton_iff.mp ht₂
      have hskip : c.skipBlanks = c₁ := Cursor.skipBlanks_eq_of_cons hb ht₁ hr rfl
      rw [exponent, hskip]
      rw [hr, ← hcol]
      rfl
  | @integer σ k s w hs hw hne hk hle hlt =>
      have he : (Exponent.integer k).Spelled (s ++ w) := .integer hs hw hne hk hle hlt
      have hread := Cursor.exponent_eq_some_iff.mpr ⟨_, he, ht₂, hdigit⟩
      obtain ⟨ch, w', hcons, hch⟩ : ∃ ch w', s ++ w = ch :: w' ∧
          isInlineBlank ch = false ∧ ch ≠ 'T' := by
        obtain ⟨d, w, rfl⟩ := List.exists_cons_of_ne_nil hne
        have hd := hw d (by simp)
        cases hs with
        | none =>
            have hstart : startsNumber d := Cursor.startsNumber_iff.mpr (Or.inl hd)
            exact ⟨d, w, rfl, Cursor.isInlineBlank_of_startsNumber hstart,
              by rintro rfl; exact absurd hd (by decide)⟩
        | plus => exact ⟨'+', d :: w, rfl, by decide, by decide⟩
        | minus => exact ⟨'-', d :: w, rfl, by decide, by decide⟩
      have hr : c₁.rest = ch :: (w' ++ c'.rest) := by rw [ht₂.1, hcons]; rfl
      have hskip : c.skipBlanks = c₁ := Cursor.skipBlanks_eq_of_cons hb ht₁ hr hch.1
      rw [exponent, hskip]
      rw [hr]
      split
      · next heq => cases heq; exact absurd rfl hch.2
      · rw [hread]
        rfl

/-- What is read as an exponent spells one, behind blanks. -/
theorem exists_of_exponent_eq_ok (h : exponent position c a = .ok (a', c')) :
    ∃ (b : List Char) (e : Exponent) (w : List Char), Blanks b ∧ e.Spelled w ∧
      c.Takes (b ++ w) c' := by
  obtain ⟨b, hb, ht, -⟩ := Cursor.skipBlanks_eq_iff.mp (rfl : c.skipBlanks = c.skipBlanks)
  rw [exponent] at h
  generalize c.skipBlanks = c₁ at *
  split at h
  · next rest hr =>
    cases h
    refine ⟨b, .transpose, ['T'], hb, .transpose, ht.append ?_⟩
    exact Cursor.takes_singleton_iff.mpr ⟨hr, rfl⟩
  · split at h
    · cases h
    · next k c₂ hk =>
      obtain ⟨a₁, -, heq⟩ := map_eq_ok_iff.mp h
      cases heq
      obtain ⟨w, hw, ht', -⟩ := Cursor.exponent_eq_some_iff.mp hk
      exact ⟨b, .integer k, w, hb, hw, ht.append ht'⟩

end Machine

end MatrixReckoner
