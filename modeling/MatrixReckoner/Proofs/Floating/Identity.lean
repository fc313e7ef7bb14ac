import MatrixReckoner.Proofs.Floating.Integral

/-!
Products of square matrices of doubles with the identity.

* `Double.productFits_one`, `Double.one_productFits`: the classical product with the identity has
  nothing to round.
* `DenseMatrix.isEqual_mk`: matrices with equal entries are equal.
* `DenseMatrix.StrassenExact`: Strassen's product, where it is chosen, has nothing to round.
* `DenseMatrix.exists_multiply_isEqual`: products, by either method, that do not round.
* `DenseMatrix.multiply_identity_of_integral`: the identity times integers that are small enough for
  the order.
* `DenseMatrix.multiply_identity`: the classical products of a matrix of finite entries with the
  identity are the matrix itself, and so are the chosen ones where Strassen's does not round.
-/

namespace MatrixReckoner

open Grid (side ProductFits)

variable {m n : ℕ}

/-! ### Nothing to round -/

namespace Double

lemma sum_map_ite_of_nodup (f : Fin n → ℚ) (j : Fin n) {l : List (Fin n)} (hl : l.Nodup) :
    (l.map fun p => if p = j then f p else 0).sum = if j ∈ l then f j else 0 := by
  rw [List.sum_map_ite_eq l f (fun _ => 0) j]
  split
  · next hj => simp [List.count_eq_one_of_mem hl hj]
  · next hj => simp [List.count_eq_zero_of_not_mem hj]

/-- Where all terms of a sum but one are zero, the partial sums are zero or this one. -/
lemma representable_sum {f : Fin n → ℚ} (hf : ∀ p, Representable (f p)) (j : Fin n) :
    (∀ p, Representable (if p = j then f p else 0)) ∧
      ∀ l, l <+: List.finRange n → Representable (l.map fun p => if p = j then f p else 0).sum := by
  have hite : ∀ (c : Prop) [Decidable c] (p : Fin n), Representable (if c then f p else 0) := by
    intro c _ p
    split
    · exact hf p
    · exact denotes_zero.representable
  refine ⟨fun p => hite _ p, fun l hl => ?_⟩
  rw [sum_map_ite_of_nodup f j (hl.sublist.nodup (List.nodup_finRange n))]
  exact hite _ j

lemma productFits_one {u : Matrix (Fin m) (Fin n) ℚ} (hu : Within Representable u) :
    ProductFits Representable u (1 : Matrix (Fin n) (Fin n) ℚ) := by
  intro i j
  have hterm : ∀ p, u i p * (1 : Matrix (Fin n) (Fin n) ℚ) p j = if p = j then u i p else 0 := by
    intro p
    rw [Matrix.one_apply, mul_ite, mul_one, mul_zero]
  simp only [hterm]
  exact representable_sum (hu i) j

lemma one_productFits {u : Matrix (Fin m) (Fin n) ℚ} (hu : Within Representable u) :
    ProductFits Representable (1 : Matrix (Fin m) (Fin m) ℚ) u := by
  intro i j
  have hterm : ∀ p, (1 : Matrix (Fin m) (Fin m) ℚ) i p * u p j = if p = i then u p j else 0 := by
    intro p
    rw [Matrix.one_apply, ite_mul, one_mul, zero_mul]
    exact if_congr eq_comm rfl rfl
  simp only [hterm]
  exact representable_sum (fun p => hu p j) i

end Double

namespace DenseMatrix

open Double
open MatrixError (ofArithmetic)

/-! ### Equality -/

lemma beq_of_forall₂ {l l' : List Float} (h : List.Forall₂ (fun a b => (a == b) = true) l l') :
    (l == l') = true := by
  induction h with
  | nil => rfl
  | cons hab _ ih =>
      rw [List.cons_beq_cons, hab, ih]
      rfl

lemma toRows_eq (g : Grid Float m n) :
    g.toRows = (List.finRange m).map fun i => (List.finRange n).map (g.entry i) := by
  refine List.ext_getElem (by simp [Grid.toRows]) fun i hi _ => ?_
  refine List.ext_getElem (by simp [Grid.toRows]) fun j hj _ => ?_
  simp [Grid.toRows, Grid.entry]

/-- Matrices are compared entry by entry, row after row. -/
lemma isEqual_mk {x y : Grid Float m n} (h : ∀ i j, (x.entry i j == y.entry i j) = true) :
    isEqual ⟨m, n, x⟩ ⟨m, n, y⟩ = true := by
  have hrows : List.Forall₂ (List.Forall₂ fun a b => (a == b) = true) x.toRows y.toRows := by
    simp only [toRows_eq, List.forall₂_map_left_iff, List.forall₂_map_right_iff, List.forall₂_same]
    exact fun i _ j _ => h i j
  have hlist : (toList ⟨m, n, x⟩ == toList ⟨m, n, y⟩) = true :=
    beq_of_forall₂ (List.rel_flatten hrows)
  rw [isEqual, Bool.and_eq_true]
  exact ⟨decide_eq_true rfl, hlist⟩

/-- A computation that ends with the values of `z` ends with a matrix equal to `z`. -/
lemma exists_isEqual {t : Except Overflow (Grid Float m n)} {z : Grid Float m n}
    {u : Matrix (Fin m) (Fin n) ℚ} (ht : EndsWith t u) (hz : HasValues z u) :
    ∃ c, (⟨m, n, ·⟩) <$> ofArithmetic t = .ok c ∧ isEqual c ⟨m, n, z⟩ = true := by
  obtain ⟨g, rfl, hg⟩ := ht
  exact ⟨_, rfl, isEqual_mk fun i j => (hg i j).beq (hz i j)⟩

/-! ### Products by either method -/

/-- Where Strassen's product is chosen for two matrices of finite entries, every intermediate result
is a double, so that none is rounded. -/
def StrassenExact (a b : DenseMatrix Float) : Prop :=
  ∀ (e : ℕ) (x y : Grid Float (side e) (side e)) (u v : Matrix (Fin (side e)) (Fin (side e)) ℚ),
    0 < e → a = ⟨side e, side e, x⟩ → b = ⟨side e, side e, y⟩ → HasValues x u → HasValues y v →
    Grid.StrassenFits Representable e u v

/-- The product of two square matrices has the values of the product of the matrices if neither
method has to round. -/
lemma exists_multiply_isEqual {x y z : Grid Float n n} {u v : Matrix (Fin n) (Fin n) ℚ}
    (hx : HasValues x u) (hy : HasValues y v) (hz : HasValues z (u * v))
    (hproduct : ProductFits Representable u v) (hstrassen : StrassenExact ⟨n, n, x⟩ ⟨n, n, y⟩) :
    ∃ c, multiply ⟨n, n, x⟩ ⟨n, n, y⟩ = .ok c ∧ isEqual c ⟨n, n, z⟩ = true := by
  rw [multiply]
  split
  · next huses =>
    obtain ⟨e, x', y', he, hx', hy'⟩ := usesStrassen_iff.mp huses
    obtain rfl : n = side e := congrArg rows hx'
    cases hx'
    cases hy'
    rw [strassen_mk]
    exact exists_isEqual (endsWith_strassen e hx hy (hstrassen e _ _ u v he rfl rfl hx hy)) hz
  · rw [product_mk]
    exact exists_isEqual (endsWith_product hx hy hproduct) hz

/-! ### Integers -/

/-- The condition is one on the values of the two grids. -/
lemma strassenExact_mk {e : ℕ} {x y : Grid Float (side e) (side e)}
    {u v : Matrix (Fin (side e)) (Fin (side e)) ℚ} (hx : HasValues x u) (hy : HasValues y v)
    (h : Grid.StrassenFits Representable e u v) :
    StrassenExact ⟨side e, side e, x⟩ ⟨side e, side e, y⟩ := by
  intro e' x' y' u' v' _ hx' hy' hu' hv'
  obtain rfl : e = e' := side_injective (congrArg rows hx')
  cases hx'
  cases hy'
  rwa [← hx.unique hu', ← hy.unique hv']

/-- **Integers of small magnitude**: a matrix of integers whose magnitudes times the square of twice
the order are below `2 ^ 53` is not changed by the identity, also where Strassen's product is
chosen. -/
theorem multiply_identity_of_integral {e B : ℕ} (h : 4 ^ (e + 1) * B < 2 ^ 53) (hB : 0 < B)
    {x : Grid Float (side e) (side e)} {u : Matrix (Fin (side e)) (Fin (side e)) ℚ}
    (hx : HasValues x u) (hu : Within (Integral B) u) :
    (∃ c, multiply ⟨side e, side e, x⟩ ⟨side e, side e, .identity (side e)⟩ = .ok c ∧
      isEqual c ⟨side e, side e, x⟩ = true) ∧
    ∃ c, multiply ⟨side e, side e, .identity (side e)⟩ ⟨side e, side e, x⟩ = .ok c ∧
      isEqual c ⟨side e, side e, x⟩ = true := by
  have hright := strassenFits_of_integral e hB one_pos (by rwa [mul_one]) hu within_one
  have hleft := strassenFits_of_integral e one_pos hB (by rwa [one_mul]) within_one hu
  refine ⟨?_, ?_⟩
  · exact exists_multiply_isEqual hx hasValues_identity (hx.of_eq (mul_one u).symm)
      (productFits_one hx.within) (strassenExact_mk hx hasValues_identity hright)
  · exact exists_multiply_isEqual hasValues_identity hx (hx.of_eq (one_mul u).symm)
      (one_productFits hx.within) (strassenExact_mk hasValues_identity hx hleft)

/-! ### The identity -/

/-- **Products with the identity**: for every square matrix of finite doubles, its classical
products with the identity, on either side, are the matrix itself.  So are the products by the
chosen method, unless this is Strassen's and has to round an intermediate result. -/
theorem multiply_identity (x : Grid Float n n) (hx : ∀ i j, (x.entry i j).isFinite = true) :
    (∃ c, product ⟨n, n, x⟩ ⟨n, n, .identity n⟩ = .ok c ∧ isEqual c ⟨n, n, x⟩ = true) ∧
    (∃ c, product ⟨n, n, .identity n⟩ ⟨n, n, x⟩ = .ok c ∧ isEqual c ⟨n, n, x⟩ = true) ∧
    (StrassenExact ⟨n, n, x⟩ ⟨n, n, .identity n⟩ →
      ∃ c, multiply ⟨n, n, x⟩ ⟨n, n, .identity n⟩ = .ok c ∧ isEqual c ⟨n, n, x⟩ = true) ∧
    (StrassenExact ⟨n, n, .identity n⟩ ⟨n, n, x⟩ →
      ∃ c, multiply ⟨n, n, .identity n⟩ ⟨n, n, x⟩ = .ok c ∧ isEqual c ⟨n, n, x⟩ = true) := by
  obtain ⟨u, hu⟩ := exists_hasValues hx
  have hright : HasValues x (u * 1) := hu.of_eq (mul_one u).symm
  have hleft : HasValues x (1 * u) := hu.of_eq (one_mul u).symm
  refine ⟨?_, ?_, fun h => ?_, fun h => ?_⟩
  · rw [product_mk]
    exact exists_isEqual (endsWith_product hu hasValues_identity (productFits_one hu.within)) hright
  · rw [product_mk]
    exact exists_isEqual (endsWith_product hasValues_identity hu (one_productFits hu.within)) hleft
  · exact exists_multiply_isEqual hu hasValues_identity hright (productFits_one hu.within) h
  · exact exists_multiply_isEqual hasValues_identity hu hleft (one_productFits hu.within) h

/-- The matrix of ones of order two, for which Strassen's product is chosen. -/
theorem multiply_identity_of_ones :
    usesStrassen ⟨2, 2, .replicate 2 2 (1 : Float)⟩ ⟨2, 2, .identity 2⟩ = true ∧
    (∃ c, multiply ⟨2, 2, .replicate 2 2 (1 : Float)⟩ ⟨2, 2, .identity 2⟩ = .ok c ∧
      isEqual c ⟨2, 2, .replicate 2 2 1⟩ = true) ∧
    ∃ c, multiply ⟨2, 2, .identity 2⟩ ⟨2, 2, .replicate 2 2 (1 : Float)⟩ = .ok c ∧
      isEqual c ⟨2, 2, .replicate 2 2 1⟩ = true := by
  have hx : HasValues (.replicate 2 2 (1 : Float)) fun _ _ => 1 := by
    intro i j
    rw [Grid.entry_replicate]
    exact denotes_one
  have hu : Within (Integral 1) fun _ _ : Fin (side 1) => (1 : ℚ) :=
    fun _ _ => ⟨1, by norm_num, Int.cast_one.symm⟩
  obtain ⟨-, -, hright, hleft⟩ := multiply_identity (.replicate 2 2 (1 : Float)) fun i j =>
    isFinite_iff.mpr ⟨1, hx i j⟩
  refine ⟨by decide, hright ?_, hleft ?_⟩
  · exact @strassenExact_mk 1 _ _ _ _ hx hasValues_identity
      (strassenFits_of_integral 1 one_pos one_pos (by norm_num) hu within_one)
  · exact @strassenExact_mk 1 _ _ _ _ hasValues_identity hx
      (strassenFits_of_integral 1 one_pos one_pos (by norm_num) within_one hu)

/-- The numbers `2 ^ 1023` next to each other, above zeros: the classical product with the identity
is the matrix itself, but the sum of the two, which Strassen's scheme makes, is infinite. -/
theorem multiply_identity_of_large :
    let x : Grid Float 2 2 :=
      .ofVector #v[.ofBits 0x7fe0000000000000, .ofBits 0x7fe0000000000000, 0, 0]
    (∀ i j, (x.entry i j).isFinite = true) ∧
      (isEqual · ⟨2, 2, x⟩) <$> product ⟨2, 2, x⟩ ⟨2, 2, .identity 2⟩ = .ok true ∧
      (isEqual · ⟨2, 2, x⟩) <$> multiply ⟨2, 2, x⟩ ⟨2, 2, .identity 2⟩ = .ok false := by
  refine ⟨?_, ?_, ?_⟩ <;> decide +kernel

/-- Without an overflow, too: a number is lost in the sum with a much larger one. -/
example : (isEqual · ⟨2, 2, .ofVector #v[1, 1e17, 0, 0]⟩) <$>
    multiply ⟨2, 2, .ofVector #v[1, 1e17, 0, 0]⟩ (⟨2, 2, .identity 2⟩ : DenseMatrix Float) =
      .ok false := by
  decide +kernel

end DenseMatrix

end MatrixReckoner
