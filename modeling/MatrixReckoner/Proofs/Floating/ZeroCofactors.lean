import MatrixReckoner.Proofs.Arithmetic.Unfailing
import MatrixReckoner.Proofs.Floating.SignedZero
import MatrixReckoner.Proofs.Grid.Deletions
import MatrixReckoner.Proofs.Grid.Places

/-!
The signs of the zeros in the adjugate of a matrix of doubles without negative zeros.

* `DenseMatrix.EndsInNegativeZero`: the matrices of order two whose determinant is a negative zero.
* `Grid.det_eq_negativeZero_iff`: determinants of all orders.
* `Grid.cofactor_eq_negativeZero_iff`: minors with their signs.
* `DenseMatrix.zeros_of_adjugate`: every zero of the adjugate is the zero of additions, but for the
  cofactors of order two that end in a negative zero and keep their sign.
* `DenseMatrix.inverse_ne_negativeZero`: the inverse has no negative zero.
-/

namespace MatrixReckoner

variable {n : ℕ}

open Double

namespace DenseMatrix

/-- The formula for order two takes a positive zero from a negative one. -/
def EndsInNegativeZero (b : DenseMatrix Float) : Prop :=
  b.rows = 2 ∧ ∃ x y z w, b.toList = [x, y, z, w] ∧ x * w = -0 ∧ y * z = 0

lemma not_endsInNegativeZero (g : Grid Float n n) (hn : n ≠ 2) : ¬ EndsInNegativeZero ⟨n, n, g⟩ :=
  fun h => hn h.1

lemma endsInNegativeZero_iff (g : Grid Float 2 2) : EndsInNegativeZero ⟨2, 2, g⟩ ↔
    g.entry 0 0 * g.entry 1 1 = -0 ∧ g.entry 0 1 * g.entry 1 0 = 0 := by
  have hlist : g.toList = [g.entry 0 0, g.entry 0 1, g.entry 1 0, g.entry 1 1] := by
    rw [← Grid.ofFn_entry g, Grid.toList_ofFn]
    simp
  constructor
  · rintro ⟨-, x, y, z, w, h, hfalling, hrising⟩
    obtain ⟨rfl, rfl, rfl, rfl, -⟩ := by simpa using hlist.symm.trans h
    exact ⟨hfalling, hrising⟩
  · exact fun h => ⟨rfl, _, _, _, _, hlist, h⟩

end DenseMatrix

namespace Grid

open DenseMatrix (EndsInNegativeZero not_endsInNegativeZero endsInNegativeZero_iff)

/-! ### Determinants -/

/-- A running sum that is not a negative zero does not become one. -/
lemma exists_addExpansionTerm_ne_negativeZero (g : Grid Float (n + 1) (n + 1)) {sum : Float}
    (hsum : sum ≠ -0) (j : Fin (n + 1)) :
    ∃ x, g.addExpansionTerm sum j = .ok x ∧ x ≠ -0 := by
  obtain ⟨m, hm, -⟩ := (Unfailing.double.keepsBounds _).exists_det_eq_ok one_pos
    (g := g.minor 0 j) (fun _ _ => trivial) le_rfl
  refine ⟨_, addExpansionTerm_eq_add hm rfl rfl sum, fun h => hsum ?_⟩
  exact ((add_eq_negativeZero_iff _ _).mp h).1

/-- An expansion along a row starts from zero. -/
lemma exists_det_ne_negativeZero (g : Grid Float (n + 3) (n + 3)) :
    ∃ d, g.det = .ok d ∧ d ≠ -0 := by
  rw [det_eq_foldlM]
  exact KeepsBounds.exists_foldlM_eq_ok (L := 0) (A := 0) (B := 0) (P := fun _ x => x ≠ -0)
    (fun hsum _ => g.exists_addExpansionTerm_ne_negativeZero hsum _) (by decide) (by simp)

/-- **Determinants that are negative zeros**: without negative zeros among the entries, they are
those of order two whose formula ends in one. -/
theorem det_eq_negativeZero_iff {g : Grid Float n n} (hg : ∀ i j, g.entry i j ≠ -0) {d : Float}
    (hd : g.det = .ok d) : d = -0 ↔ EndsInNegativeZero ⟨n, n, g⟩ := by
  match n with
  | 0 =>
    cases hd
    exact iff_of_false (by decide) (not_endsInNegativeZero g (by decide))
  | 1 =>
    cases hd
    exact iff_of_false (hg 0 0) (not_endsInNegativeZero g (by decide))
  | 2 =>
    cases hd
    rw [endsInNegativeZero_iff]
    exact sub_eq_negativeZero_iff _ _
  | n + 3 =>
    obtain ⟨d', hd', hne⟩ := g.exists_det_ne_negativeZero
    cases hd.symm.trans hd'
    exact iff_of_false hne (not_endsInNegativeZero g (by omega))

/-! ### Cofactors -/

/-- A minor that is subtracted from zero leaves no negative zero. -/
lemma cofactor_eq_negativeZero_iff {g : Grid Float (n + 1) (n + 1)}
    (hg : ∀ i j, g.entry i j ≠ -0) {i j : Fin (n + 1)} {x : Float} (hx : g.cofactor i j = .ok x) :
    x = -0 ↔ (i.val + j.val) % 2 = 0 ∧ EndsInNegativeZero ⟨n, n, g.minor i j⟩ := by
  obtain ⟨d, hd, hx⟩ := bind_eq_ok_iff.mp hx
  have hminor := det_eq_negativeZero_iff (forall_entry_minor (P := (· ≠ -0)) hg i j) hd
  split at hx
  · next heven =>
    cases hx
    rw [hminor, and_iff_right heven]
  · next hodd =>
    cases hx
    refine iff_of_false ?_ fun h => hodd h.1
    rw [sub_eq_negativeZero_iff]
    exact fun h => absurd h.1 (by decide)

end Grid

namespace DenseMatrix

/-! ### Adjugates -/

/-- The cofactor of row `i` and column `j` is a minor with its own sign that ends in a negative
zero. -/
def KeepsNegativeZero (a : DenseMatrix Float) (i j : ℕ) : Prop :=
  (i + j) % 2 = 0 ∧ ∃ b, a.submatrix i j = .ok b ∧ b.EndsInNegativeZero

lemma keepsNegativeZero_iff (h : Shape.Fits (Element.bytes Float) ⟨n + 1, n + 1⟩)
    (g : Grid Float (n + 1) (n + 1)) (i j : Fin (n + 1)) :
    KeepsNegativeZero ⟨n + 1, n + 1, g⟩ i j ↔
      (i.val + j.val) % 2 = 0 ∧ EndsInNegativeZero ⟨n, n, g.minor i j⟩ := by
  refine and_congr_right fun _ => ⟨?_, fun hends => ⟨_, submatrix_mk ?_ g i j, hends⟩⟩
  · rintro ⟨b, hb, hends⟩
    rw [submatrix_of_lt] at hb
    split at hb
    · cases hb
      exact hends
    · cases hb
  · have horder : n = 2 := hends.1
    exact h.minors (by omega)

/-- **Zeros of the adjugate**: a matrix of doubles that is square, can be stored and has no negative
zero has an adjugate.  Its zeros are the zero of additions, except where a minor of order two keeps
its sign and the formula for it takes a positive zero from a negative one; there the entry is the
negative zero. -/
theorem zeros_of_adjugate (a : DenseMatrix Float) (hsquare : a.rows = a.cols)
    (hfits : a.shape.Fits (Element.bytes Float)) (ha : ∀ x ∈ a.toList, x ≠ -0) :
    ∃ c, a.adjugate = .ok c ∧ c.shape = a.shape ∧
      ∀ i < a.rows, ∀ j < a.rows, ∃ x, c.get j i = .ok x ∧
        (a.KeepsNegativeZero i j → x = -0) ∧
        (¬ a.KeepsNegativeZero i j → (x == 0) = true → x = 0) := by
  obtain ⟨m, n, g⟩ := a
  obtain rfl : m = n := hsquare
  obtain ⟨m, rfl⟩ : ∃ k, m = k + 1 := ⟨m - 1, (Nat.sub_add_cancel hfits.1).symm⟩
  have hg : ∀ i j, g.entry i j ≠ -0 := fun i j =>
    ha _ (List.mem_of_getElem? (g.getElem?_toList i j))
  obtain ⟨y, hy⟩ := Unfailing.double.exists_adjugate_eq_ok g hfits.minors
  obtain ⟨y', hy', heq⟩ := exists_of_adjugate_eq_ok hy
  cases heq
  obtain ⟨c, hc, rfl⟩ := map_eq_ok_iff.mp hy'
  refine ⟨_, hy, rfl, fun i hi j hj => ?_⟩
  have hcofactor := Grid.tabulate_eq_ok_iff.mp hc ⟨i, hi⟩ ⟨j, hj⟩
  have hkeeps := (Grid.cofactor_eq_negativeZero_iff hg hcofactor).trans
    (keepsNegativeZero_iff hfits g ⟨i, hi⟩ ⟨j, hj⟩).symm
  refine ⟨c.entry ⟨i, hi⟩ ⟨j, hj⟩, ?_, hkeeps.mpr, fun hne hzero => ?_⟩
  · rw [← Grid.entry_transpose]
    exact get_mk c.transpose ⟨j, hj⟩ ⟨i, hi⟩
  · exact ((beq_zero_iff _).mp hzero).resolve_right fun h => hne (hkeeps.mp h)

/-- The diagonal matrix of `1`, `0` and `-1`: the formula ends in a negative zero at the first
position, where it takes `0 * 0` from `0 * -1`, and not at the last one. -/
theorem zeros_of_adjugate_of_diagonal :
    let a : DenseMatrix Float := ⟨3, 3, .ofVector #v[1, 0, 0, 0, 0, 0, 0, 0, -1]⟩
    a.rows = a.cols ∧ a.shape.Fits 8 ∧ (∀ x ∈ a.toList, x ≠ -0) ∧
      ∃ c, a.adjugate = .ok c ∧ c.shape = a.shape ∧ c.get 0 0 = .ok (-0) ∧
        ∃ x, c.get 2 2 = .ok x ∧ ((x == 0) = true → x = 0) := by
  intro a
  have hfits : a.shape.Fits (Element.bytes Float) := by decide
  have hentries : ∀ x ∈ a.toList, x ≠ -0 := by decide +kernel
  obtain ⟨c, hc, hshape, hzeros⟩ := zeros_of_adjugate a rfl hfits hentries
  obtain ⟨x, hx, hkeeps, -⟩ := hzeros 0 (by decide) 0 (by decide)
  obtain ⟨y, hy, -, hzero⟩ := hzeros 2 (by decide) 2 (by decide)
  refine ⟨rfl, hfits, hentries, c, hc, hshape, ?_, y, hy, hzero fun h => ?_⟩
  · rw [hx, hkeeps ((keepsNegativeZero_iff (n := 2) hfits _ 0 0).mpr ⟨rfl, ?_⟩)]
    rw [endsInNegativeZero_iff]
    decide +kernel
  · have hends := ((keepsNegativeZero_iff (n := 2) hfits _ 2 2).mp h).2
    rw [endsInNegativeZero_iff] at hends
    exact absurd hends (by decide +kernel)

/-- A matrix of finite entries without a negative zero, and a zero of its adjugate that is not the
zero of additions. -/
theorem adjugate_of_diagonal_has_negativeZero :
    let a : DenseMatrix Float := ⟨3, 3, .ofVector #v[1, 0, 0, 0, 0, 0, 0, 0, -1]⟩
    (∀ x ∈ a.toList, x.isFinite = true ∧ x ≠ -0) ∧
      ∃ c x, a.adjugate = .ok c ∧ c.get 0 0 = .ok x ∧ (x == 0) = true ∧ x ≠ 0 := by
  intro a
  have hfirst : (a.adjugate >>= fun c => c.get 0 0) = .ok (-0) := by decide +kernel
  obtain ⟨c, hc, hx⟩ := bind_eq_ok_iff.mp hfirst
  exact ⟨by decide +kernel, c, -0, hc, hx, by decide, by decide⟩

/-! ### Inverses -/

/-- **Zeros of the inverse**: the zero that is added to every entry leaves no negative zero,
whatever the entries of the matrix are. -/
theorem inverse_ne_negativeZero {a b : DenseMatrix Float} (h : a.inverse = .ok b) (i j : ℕ) :
    b.get i j ≠ .ok (-0) := by
  obtain ⟨d, -, h⟩ := bind_eq_ok_iff.mp h
  split at h
  · cases h
  · obtain ⟨c, -, h⟩ := bind_eq_ok_iff.mp h
    obtain ⟨g, hg, h⟩ := bind_eq_ok_iff.mp h
    cases h
    rw [MatrixError.ofArithmetic_eq_ok_iff, Grid.mapM_eq_ok_iff] at hg
    intro hget
    rw [get] at hget
    split at hget
    · next hin =>
      have hentry := hg ⟨i, hin.1⟩ ⟨j, hin.2⟩
      rw [Except.ok.inj hget] at hentry
      have hsum := (add_eq_negativeZero_iff _ _).mp (Except.ok.inj hentry)
      exact absurd hsum.2 (by decide)
    · cases hget

end DenseMatrix

end MatrixReckoner
