import Mathlib.Data.Nat.Factorial.Basic
import MatrixReckoner.Grid.Algebra
import MatrixReckoner.Proofs.Arithmetic.Exact

/-!
The expansion of a determinant over numbers whose arithmetic has a result as long as a bound is
kept.

* `KeepsBounds`: bounds of numbers, and up to which bound the operations have results.
* `KeepsBounds.exists_foldlM_eq_ok`: a running sum.
* `Grid.addExpansionTerm`: one step of the expansion.
* `KeepsBounds.exists_det_eq_ok`, `KeepsBounds.exists_adjugate_eq_ok`: determinants and adjugates of
  bounded entries.
-/

namespace MatrixReckoner

open scoped Nat

variable {α : Type} [Element α] {P : ℕ → α → Prop} {L A B n : ℕ}

/-- Bounds of numbers: `P A x` stands for a number `x` of magnitude `A` at most.  An operation whose
result is bounded by `L` has one. -/
structure KeepsBounds (L : ℕ) (P : ℕ → α → Prop) : Prop where
  zero : P 0 Element.zero
  one : P 1 Element.one
  add {A B : ℕ} {x y : α} : P A x → P B y → A + B ≤ L → ∃ z, Element.add x y = .ok z ∧ P (A + B) z
  sub {A B : ℕ} {x y : α} : P A x → P B y → A + B ≤ L → ∃ z, Element.sub x y = .ok z ∧ P (A + B) z
  mul {A B : ℕ} {x y : α} : P A x → P B y → A * B ≤ L → ∃ z, Element.mul x y = .ok z ∧ P (A * B) z
  neg {A : ℕ} {x : α} : P A x → A ≤ L → ∃ z, Element.neg x = .ok z ∧ P A z

/-! ### Steps of the expansion -/

namespace Grid

omit [Element α] in
/-- The entries of a minor are entries of the grid. -/
lemma forall_entry_minor {P : α → Prop} {g : Grid α (n + 1) (n + 1)} (hg : ∀ i j, P (g.entry i j))
    (p q : Fin (n + 1)) (i j : Fin n) : P ((g.minor p q).entry i j) := by
  rw [entry_minor]
  exact hg _ _

/-- The running sum of an expansion with the term of one column added. -/
def addExpansionTerm (g : Grid α (n + 1) (n + 1)) (sum : α) (j : Fin (n + 1)) :
    Except Overflow α := do
  let term ← Element.mul (g.entry 0 j) (← det (g.minor 0 j))
  Element.add sum (← if j.val % 2 = 0 then .ok term else Element.neg term)

lemma det_eq_foldlM (g : Grid α (n + 3) (n + 3)) :
    g.det = (List.finRange (n + 3)).foldlM g.addExpansionTerm Element.zero := by
  rw [det]
  rfl

/-- What a step adds, if the minor, the product with it and the opposite of that are computed. -/
lemma addExpansionTerm_eq_add {g : Grid α (n + 1) (n + 1)} {j : Fin (n + 1)} {m term opposite : α}
    (hminor : (g.minor 0 j).det = .ok m) (hterm : Element.mul (g.entry 0 j) m = .ok term)
    (hopposite : Element.neg term = .ok opposite) (sum : α) :
    g.addExpansionTerm sum j =
      Element.add sum (if j.val % 2 = 0 then term else opposite) := by
  rw [addExpansionTerm, hminor]
  dsimp only [bind, Except.bind]
  rw [hterm]
  dsimp only
  split
  · rfl
  · rw [hopposite]

end Grid

/-- The bounds of determinants grow with the order. -/
lemma factorial_mul_pow_le (hA : 0 < A) {k : ℕ} (h : k ≤ n) : k ! * A ^ k ≤ n ! * A ^ n :=
  Nat.mul_le_mul (Nat.factorial_le h) (Nat.pow_le_pow_right hA h)

namespace KeepsBounds

omit [Element α] in
/-- A running sum to which every step adds at most `B`. -/
lemma exists_foldlM_eq_ok {β : Type} {f : α → β → Except Overflow α}
    (hf : ∀ {A : ℕ} {x : α} {b : β}, P A x → A + B ≤ L → ∃ y, f x b = .ok y ∧ P (A + B) y)
    {l : List β} {x : α} (hx : P A x) (h : A + l.length * B ≤ L) :
    ∃ y, l.foldlM f x = .ok y ∧ P (A + l.length * B) y := by
  induction l generalizing A x with
  | nil => exact ⟨x, rfl, by simpa using hx⟩
  | cons b l ih =>
      have hlength : A + (b :: l).length * B = A + B + l.length * B := by
        rw [List.length_cons, Nat.succ_mul]
        omega
      rw [hlength] at h ⊢
      obtain ⟨x₁, hx₁, hbound⟩ := hf (b := b) hx (by omega)
      obtain ⟨y, hy, hvalue⟩ := ih hbound h
      exact ⟨y, by rw [List.foldlM_cons]; exact bind_eq_ok_iff.mpr ⟨x₁, hx₁, hy⟩, hvalue⟩

/-- The term of a column is added to the running sum. -/
lemma exists_addExpansionTerm_eq_ok (hP : KeepsBounds L P) {g : Grid α (n + 1) (n + 1)}
    {j : Fin (n + 1)} {m x : α} (hentry : P A (g.entry 0 j)) (hminor : (g.minor 0 j).det = .ok m)
    (hm : P B m) {C : ℕ} (hx : P C x) (h : C + A * B ≤ L) :
    ∃ y, g.addExpansionTerm x j = .ok y ∧ P (C + A * B) y := by
  obtain ⟨term, hterm, htermP⟩ := hP.mul hentry hm (by omega)
  obtain ⟨opposite, hopposite, hoppositeP⟩ := hP.neg htermP (by omega)
  have hsigned : P (A * B) (if j.val % 2 = 0 then term else opposite) := by
    split
    · exact htermP
    · exact hoppositeP
  rw [Grid.addExpansionTerm_eq_add hminor hterm hopposite]
  exact hP.add hx hsigned h

/-- **The expansion of bounded entries**: while the bound of the determinant is kept, every term and
every partial sum has a result. -/
theorem exists_det_eq_ok (hP : KeepsBounds L P) (hA : 0 < A) {g : Grid α n n}
    (hg : ∀ i j, P A (g.entry i j)) (h : n ! * A ^ n ≤ L) :
    ∃ d, g.det = .ok d ∧ P (n ! * A ^ n) d := by
  induction g using Grid.det.induct with
  | case1 g => exact ⟨Element.one, rfl, hP.one⟩
  | case2 g =>
      refine ⟨g.entry 0 0, rfl, ?_⟩
      rw [Nat.factorial_one, one_mul, pow_one]
      exact hg 0 0
  | case3 g =>
      have hsquare : 2 ! * A ^ 2 = A * A + A * A := by
        rw [Nat.factorial_two]
        ring
      rw [hsquare] at h ⊢
      obtain ⟨falling, hfalling, hfallingP⟩ := hP.mul (hg 0 0) (hg 1 1) (by omega)
      obtain ⟨rising, hrising, hrisingP⟩ := hP.mul (hg 0 1) (hg 1 0) (by omega)
      obtain ⟨d, hd, hdP⟩ := hP.sub hfallingP hrisingP h
      exact ⟨d, bind_eq_ok_iff.mpr ⟨falling, hfalling, bind_eq_ok_iff.mpr ⟨rising, hrising, hd⟩⟩,
        hdP⟩
  | case4 n g ih =>
      have hminors : ∀ j, ∃ m, (g.minor 0 j).det = .ok m ∧ P ((n + 2) ! * A ^ (n + 2)) m := fun j =>
        ih j (Grid.forall_entry_minor hg 0 j) ((factorial_mul_pow_le hA (by omega)).trans h)
      have hterms : 0 + (List.finRange (n + 3)).length * (A * ((n + 2) ! * A ^ (n + 2))) =
          (n + 3) ! * A ^ (n + 3) := by
        rw [List.length_finRange, Nat.factorial_succ (n + 2), pow_succ A (n + 2)]
        ring
      rw [Grid.det_eq_foldlM, ← hterms]
      refine exists_foldlM_eq_ok (fun {C x j} hx hC => ?_) hP.zero (hterms.trans_le h)
      obtain ⟨m, hm, hmP⟩ := hminors j
      exact hP.exists_addExpansionTerm_eq_ok (hg 0 j) hm hmP hx hC

/-- A cofactor is bounded like the determinant of a minor. -/
lemma exists_cofactor_eq_ok (hP : KeepsBounds L P) (hA : 0 < A) {g : Grid α (n + 1) (n + 1)}
    (hg : ∀ i j, P A (g.entry i j)) (h : n ! * A ^ n ≤ L) (i j : Fin (n + 1)) :
    ∃ x, g.cofactor i j = .ok x ∧ P (n ! * A ^ n) x := by
  obtain ⟨m, hm, hmP⟩ := hP.exists_det_eq_ok hA (Grid.forall_entry_minor hg i j) h
  rw [Grid.cofactor, hm]
  by_cases hij : (i.val + j.val) % 2 = 0
  · exact ⟨m, if_pos hij, hmP⟩
  · obtain ⟨x, hx, hxP⟩ := hP.sub hP.zero hmP (by omega)
    rw [Nat.zero_add] at hxP
    exact ⟨x, (if_neg hij).trans hx, hxP⟩

/-- All cofactors of bounded entries are computed. -/
theorem exists_adjugate_eq_ok (hP : KeepsBounds L P) (hA : 0 < A) {g : Grid α n n}
    (hg : ∀ i j, P A (g.entry i j)) (h : n ! * A ^ n ≤ L) :
    ∃ b, g.adjugate = .ok b ∧ ∀ i j, P ((n - 1) ! * A ^ (n - 1)) (b.entry i j) := by
  cases n with
  | zero => exact ⟨g, rfl, fun i => i.elim0⟩
  | succ n =>
      have hminors : n ! * A ^ n ≤ L := (factorial_mul_pow_le hA (Nat.le_succ n)).trans h
      obtain ⟨c, hc, hcP⟩ := Grid.exists_tabulate_eq_ok (hP.exists_cofactor_eq_ok hA hg hminors)
      refine ⟨c.transpose, map_eq_ok_iff.mpr ⟨c, hc, rfl⟩, fun i j => ?_⟩
      rw [Grid.entry_transpose]
      exact hcP j i

end KeepsBounds

end MatrixReckoner
