import MatrixReckoner.Proofs.Arithmetic.Multiply
import MatrixReckoner.Proofs.Floating.Exactness

/-!
Products of matrices of doubles are exact where no operation on the entries has to round.

* `Double.HasValues`, `Double.EndsWith`: grids of finite doubles with given values, and computations
  that end with such a grid.
* `Double.endsWith_product`: the classical product, if every term and every partial sum is a double.
* `Double.endsWith_strassen`: Strassen's product, if every intermediate result of the scheme is a
  double.
-/

namespace MatrixReckoner.Double

open Grid (side addMultiple rowProduct ProductFits)

variable {m k n h m' n' : ℕ}

/-! ### Grids of doubles -/

/-- The entries of the grid are finite, with the values of the matrix. -/
def HasValues (g : Grid Float m n) (v : Matrix (Fin m) (Fin n) ℚ) : Prop :=
  ∀ i j, Denotes (g.entry i j) (v i j)

/-- The computation ends with a grid of the values `v`. -/
def EndsWith (t : Except Overflow (Grid Float m n)) (v : Matrix (Fin m) (Fin n) ℚ) : Prop :=
  ∃ g, t = .ok g ∧ HasValues g v

lemma HasValues.within {g : Grid Float m n} {v : Matrix (Fin m) (Fin n) ℚ} (hg : HasValues g v) :
    Within Representable v :=
  fun i j => (hg i j).representable

lemma HasValues.of_eq {g : Grid Float m n} {v w : Matrix (Fin m) (Fin n) ℚ} (hg : HasValues g v)
    (h : v = w) : HasValues g w :=
  h ▸ hg

lemma HasValues.unique {g : Grid Float m n} {v w : Matrix (Fin m) (Fin n) ℚ} (hv : HasValues g v)
    (hw : HasValues g w) : v = w :=
  Matrix.ext fun i j => (hv i j).unique (hw i j)

/-- Finite entries have values. -/
lemma exists_hasValues {g : Grid Float m n} (hg : ∀ i j, (g.entry i j).isFinite = true) :
    ∃ v, HasValues g v := by
  choose v hv using fun i j => isFinite_iff.mp (hg i j)
  exact ⟨v, hv⟩

lemma hasValues_identity : HasValues (.identity n) (1 : Matrix (Fin n) (Fin n) ℚ) := by
  intro i j
  rw [Grid.identity, Grid.entry_ofFn, Matrix.one_apply]
  split
  · exact denotes_one
  · exact denotes_zero

lemma EndsWith.bind {t : Except Overflow (Grid Float m n)} {v : Matrix (Fin m) (Fin n) ℚ}
    {w : Matrix (Fin m') (Fin n') ℚ} {f : Grid Float m n → Except Overflow (Grid Float m' n')}
    (ht : EndsWith t v) (hf : ∀ g, HasValues g v → EndsWith (f g) w) : EndsWith (t >>= f) w := by
  obtain ⟨g, rfl, hg⟩ := ht
  exact hf g hg

/-! ### Operations entry by entry -/

section Entries

variable {a b : Grid Float m n} {u v : Matrix (Fin m) (Fin n) ℚ}

lemma endsWith_tabulate {f : Fin m → Fin n → Float} (hf : ∀ i j, Denotes (f i j) (u i j)) :
    EndsWith (Grid.tabulate fun i j => .ok (f i j)) u :=
  Grid.exists_tabulate_eq_ok (P := fun i j x => Denotes x (u i j)) fun i j => ⟨f i j, rfl, hf i j⟩

lemma endsWith_add (ha : HasValues a u) (hb : HasValues b v) (hw : Within Representable (u + v)) :
    EndsWith (a.add b) (u + v) :=
  endsWith_tabulate fun i j => (ha i j).add (hb i j) (hw i j)

lemma endsWith_sub (ha : HasValues a u) (hb : HasValues b v) (hw : Within Representable (u - v)) :
    EndsWith (a.sub b) (u - v) :=
  endsWith_tabulate fun i j => (ha i j).sub (hb i j) (hw i j)

lemma endsWith_scale {s : Float} {r : ℚ} (ha : HasValues a u) (hs : Denotes s r)
    (hw : Within Representable (r • u)) : EndsWith (a.scale s) (r • u) := by
  refine endsWith_tabulate fun i j => ?_
  have hij := hw i j
  rw [Matrix.smul_apply, smul_eq_mul, mul_comm] at hij ⊢
  exact (ha i j).mul hs hij

end Entries

/-! ### The classical product -/

lemma addMultiple_eq (acc row : Vector Float n) (x : Float) :
    addMultiple acc x row = .ok (.ofFn fun j => acc.get j + x * row.get j) := by
  rw [addMultiple, ofFnM_eq_ok_iff]
  intro j
  rw [Fin.getElem_fin, Vector.getElem_ofFn]
  rfl

/-- Multiples of the rows of `b` are added one after another: after the rows `done` the running row
has the partial sums of the rows `done`. -/
lemma exists_foldlM_eq_ok {row : Vector Float k} {b : Grid Float k n} {r : Fin k → ℚ}
    {v : Matrix (Fin k) (Fin n) ℚ} (hrow : ∀ p, Denotes (row.get p) (r p)) (hb : HasValues b v)
    (hterms : ∀ p j, Representable (r p * v p j)) (done rest : List (Fin k))
    (hsums : ∀ l, l <+: done ++ rest → ∀ j, Representable (l.map fun p => r p * v p j).sum)
    (acc : Vector Float n) (hacc : ∀ j, Denotes (acc.get j) (done.map fun p => r p * v p j).sum) :
    ∃ acc', rest.foldlM (fun acc p => addMultiple acc (row.get p) (b.row p)) acc =
        (.ok acc' : Except Overflow _) ∧
      ∀ j, Denotes (acc'.get j) ((done ++ rest).map fun p => r p * v p j).sum := by
  induction rest generalizing done acc with
  | nil =>
      rw [List.append_nil]
      exact ⟨acc, rfl, hacc⟩
  | cons p rest ih =>
      rw [List.foldlM_cons, addMultiple_eq]
      have happend : done ++ p :: rest = (done ++ [p]) ++ rest := by simp
      rw [happend] at hsums ⊢
      refine ih (done ++ [p]) hsums _ fun j => ?_
      have hsum := hsums (done ++ [p]) (List.prefix_append _ _) j
      rw [List.map_append, List.sum_append, List.map_singleton, List.sum_singleton] at hsum ⊢
      have hget : (Vector.ofFn fun j => acc.get j + row.get p * (b.row p).get j).get j =
          acc.get j + row.get p * b.entry p j := Vector.getElem_ofFn j.isLt
      rw [hget]
      exact (hacc j).add ((hrow p).mul (hb p j) (hterms p j)) hsum

/-- **The classical product is exact where no operation rounds.** -/
theorem endsWith_product {x : Grid Float m k} {y : Grid Float k n} {u : Matrix (Fin m) (Fin k) ℚ}
    {v : Matrix (Fin k) (Fin n) ℚ} (hx : HasValues x u) (hy : HasValues y v)
    (hfits : ProductFits Representable u v) : EndsWith (x.product y) (u * v) := by
  have hzero : ∀ j : Fin n, Denotes ((Vector.replicate n (0 : Float)).get j) 0 := by
    intro j
    have hget : (Vector.replicate n (0 : Float)).get j = 0 := Vector.getElem_replicate j.isLt
    rw [hget]
    exact denotes_zero
  choose rows hrows hvalues using fun i => exists_foldlM_eq_ok (hx i) hy
    (fun p j => (hfits i j).1 p) [] (List.finRange k) (fun l hl j => (hfits i j).2 l hl)
    (Vector.replicate n 0) hzero
  refine ⟨⟨.ofFn rows⟩, Grid.product_eq_ok_iff.mpr fun i => ?_, fun i j => ?_⟩
  · rw [rowProduct]
    exact (hrows i).trans (by simp [Grid.row])
  · have hentry : (Grid.mk (Vector.ofFn rows)).entry i j = (rows i).get j := by
      simp [Grid.entry, Vector.get]
    rw [hentry, Matrix.mul_apply, Fin.sum_univ_def]
    exact hvalues i j

/-! ### Strassen's product -/

lemma hasValues_quadrants {x : Grid Float (h + h) (h + h)}
    {u : Matrix (Fin (h + h)) (Fin (h + h)) ℚ} (hx : HasValues x u) :
    HasValues x.quadrants.topLeft (u.submatrix (Fin.castAdd h) (Fin.castAdd h)) ∧
    HasValues x.quadrants.topRight (u.submatrix (Fin.castAdd h) (Fin.natAdd h)) ∧
    HasValues x.quadrants.bottomLeft (u.submatrix (Fin.natAdd h) (Fin.castAdd h)) ∧
    HasValues x.quadrants.bottomRight (u.submatrix (Fin.natAdd h) (Fin.natAdd h)) := by
  refine ⟨?_, ?_, ?_, ?_⟩ <;> intro i j <;> rw [Grid.quadrants, Grid.entry_ofFn] <;> exact hx _ _

/-- Four quarters make up the grid of their values. -/
lemma hasValues_join {q : Quadrants Float h} {u : Matrix (Fin (h + h)) (Fin (h + h)) ℚ}
    (ha : HasValues q.topLeft (u.submatrix (Fin.castAdd h) (Fin.castAdd h)))
    (hb : HasValues q.topRight (u.submatrix (Fin.castAdd h) (Fin.natAdd h)))
    (hc : HasValues q.bottomLeft (u.submatrix (Fin.natAdd h) (Fin.castAdd h)))
    (hd : HasValues q.bottomRight (u.submatrix (Fin.natAdd h) (Fin.natAdd h))) :
    HasValues q.join u := by
  intro i j
  refine Fin.addCases (fun i => ?_) (fun i => ?_) i <;>
    refine Fin.addCases (fun j => ?_) (fun j => ?_) j <;>
    simp only [Quadrants.join, Grid.entry_ofFn, Fin.addCases_left, Fin.addCases_right]
  · exact ha i j
  · exact hb i j
  · exact hc i j
  · exact hd i j

/-- **Strassen's product is exact where no operation of its scheme rounds.** -/
theorem endsWith_strassen (e : ℕ) {x y : Grid Float (side e) (side e)}
    {u v : Matrix (Fin (side e)) (Fin (side e)) ℚ} (hx : HasValues x u) (hy : HasValues y v)
    (hfits : Grid.StrassenFits Representable e u v) : EndsWith (Grid.strassen e x y) (u * v) := by
  induction e with
  | zero =>
      have hmul : u * v = v ⟨0, Nat.one_pos⟩ ⟨0, Nat.one_pos⟩ • u :=
        Grid.mul_eq_smul_of_order_one u v
      rw [Grid.StrassenFits, hmul] at hfits
      rw [Grid.strassen, hmul]
      exact endsWith_scale hx (hy _ _) hfits
  | succ k ih =>
      rw [Grid.strassen]
      obtain ⟨ha, hb, hc, hd⟩ := hasValues_quadrants (h := side k) hx
      obtain ⟨he, hf, hg, hh⟩ := hasValues_quadrants (h := side k) hy
      generalize Grid.quadrants (h := side k) x = qx at *
      generalize Grid.quadrants (h := side k) y = qy at *
      obtain ⟨a, b, c, d⟩ := qx
      obtain ⟨e, f, g, h⟩ := qy
      obtain ⟨wfh, fit₁, wab, fit₂, wcd, fit₃, wge, fit₄, wad, weh, fit₅, wbd, wgh, fit₆, wac, wef,
        fit₇, ws₁, ws₂, wtopLeft, wtopRight, wbottomLeft, ws₃, ws₄, wbottomRight⟩ := hfits
      refine (endsWith_sub hf hh wfh).bind fun fh hfh => (ih ha hfh fit₁).bind fun p₁ hp₁ =>
        (endsWith_add ha hb wab).bind fun ab hab => (ih hab hh fit₂).bind fun p₂ hp₂ =>
        (endsWith_add hc hd wcd).bind fun cd hcd => (ih hcd he fit₃).bind fun p₃ hp₃ =>
        (endsWith_sub hg he wge).bind fun ge hge => (ih hd hge fit₄).bind fun p₄ hp₄ =>
        (endsWith_add ha hd wad).bind fun ad had => (endsWith_add he hh weh).bind fun eh heh =>
        (ih had heh fit₅).bind fun p₅ hp₅ =>
        (endsWith_sub hb hd wbd).bind fun bd hbd => (endsWith_add hg hh wgh).bind fun gh hgh =>
        (ih hbd hgh fit₆).bind fun p₆ hp₆ =>
        (endsWith_sub ha hc wac).bind fun ac hac => (endsWith_add he hf wef).bind fun ef hef =>
        (ih hac hef fit₇).bind fun p₇ hp₇ =>
        (endsWith_add hp₅ hp₄ ws₁).bind fun s₁ hs₁ => (endsWith_sub hs₁ hp₂ ws₂).bind fun s₂ hs₂ =>
        (endsWith_add hs₂ hp₆ wtopLeft).bind fun topLeft htopLeft =>
        (endsWith_add hp₁ hp₂ wtopRight).bind fun topRight htopRight =>
        (endsWith_add hp₃ hp₄ wbottomLeft).bind fun bottomLeft hbottomLeft =>
        (endsWith_add hp₁ hp₅ ws₃).bind fun s₃ hs₃ => (endsWith_sub hs₃ hp₃ ws₄).bind fun s₄ hs₄ =>
        (endsWith_sub hs₄ hp₇ wbottomRight).bind fun bottomRight hbottomRight =>
        ⟨_, rfl, hasValues_join ?_ ?_ ?_ ?_⟩
      · exact htopLeft.of_eq
          ((Grid.topLeft_identity ..).trans (Grid.mul_submatrix (h := side k) u v ..).symm)
      · exact htopRight.of_eq
          ((Grid.topRight_identity ..).trans (Grid.mul_submatrix (h := side k) u v ..).symm)
      · exact hbottomLeft.of_eq
          ((Grid.bottomLeft_identity ..).trans (Grid.mul_submatrix (h := side k) u v ..).symm)
      · exact hbottomRight.of_eq
          ((Grid.bottomRight_identity ..).trans (Grid.mul_submatrix (h := side k) u v ..).symm)

end MatrixReckoner.Double
