import Mathlib.Data.Matrix.Mul
import MatrixReckoner.Proofs.Arithmetic.Exact

/-!
The classical product of grids is the product of matrices.

* `Grid.addMultiple_eq_ok_iff`, `Grid.value_of_foldlM`: a multiple of a row, and multiples one after
  another, added to a running row.
* `Grid.ProductFits`, `Grid.exists_product_eq_ok_iff`: a product succeeds exactly if every term and
  every partial sum is in range.
* `Grid.values_of_product`: a product that succeeds has the values of the matrix product.
* `Grid.exists_product_eq_ok`: over numbers that have every value of the ring it always succeeds.
-/

namespace MatrixReckoner.Grid

open Exact (value)

variable {α R : Type} [Element α] [CommRing R] [Exact α R] {m k n : ℕ}

/-- A multiple of a row is added entry by entry. The multiples are in range, too. -/
lemma addMultiple_eq_ok_iff {acc acc' row : Vector α n} {x : α} :
    addMultiple acc x row = .ok acc' ↔
      ∀ j : Fin n, InRange α (value x * value (row.get j)) ∧
        value (acc'.get j) = value (acc.get j) + value x * value (row.get j) := by
  rw [addMultiple, ofFnM_eq_ok_iff]
  refine forall_congr' fun j => ?_
  rw [bind_eq_ok_iff]
  simp only [Exact.mul_eq_ok_iff, Exact.add_eq_ok_iff]
  refine ⟨?_, ?_⟩
  · rintro ⟨y, hy, h⟩
    exact ⟨⟨y, hy⟩, by rw [← hy]; exact h⟩
  · rintro ⟨⟨y, hy⟩, h⟩
    exact ⟨y, hy, by rw [hy]; exact h⟩

/-- Multiples of rows, added one after another. -/
lemma value_of_foldlM {row : Vector α k} {b : Grid α k n} {acc acc' : Vector α n}
    {l : List (Fin k)}
    (h : l.foldlM (fun acc p => addMultiple acc (row.get p) (b.row p)) acc = .ok acc')
    (j : Fin n) : value (acc'.get j) =
      value (acc.get j) + (l.map fun p => value (row.get p) * value (b.entry p j)).sum := by
  induction l generalizing acc with
  | nil =>
      cases h
      simp
  | cons p l ih =>
      rw [List.foldlM_cons] at h
      obtain ⟨acc₁, h₁, h⟩ := bind_eq_ok_iff.mp h
      have hstep := (addMultiple_eq_ok_iff.mp h₁ j).2
      have hentry : (b.row p).get j = b.entry p j := rfl
      rw [ih h, hstep, hentry, List.map_cons, List.sum_cons, add_assoc]

/-- A product is made row after row. -/
lemma product_eq_ok_iff {a : Grid α m k} {b : Grid α k n} {c : Grid α m n} :
    a.product b = .ok c ↔ ∀ i, rowProduct (a.row i) b = .ok (c.row i) := by
  rw [product, map_eq_ok_iff]
  refine ⟨?_, ?_⟩
  · rintro ⟨rows, h, rfl⟩
    exact ofFnM_eq_ok_iff.mp h
  · intro h
    exact ⟨c.rows, ofFnM_eq_ok_iff.mpr h, rfl⟩

/-- The terms and the partial sums of every entry of a product are in the class `P`. -/
def ProductFits {R : Type} [Semiring R] (P : R → Prop) (u : Matrix (Fin m) (Fin k) R)
    (v : Matrix (Fin k) (Fin n) R) : Prop :=
  ∀ i j, (∀ p, P (u i p * v p j)) ∧
    ∀ l, l <+: List.finRange k → P (l.map fun p => u i p * v p j).sum

/-- A multiple of a row can be added if the terms and the sums are in range. -/
lemma exists_addMultiple_eq_ok {acc row : Vector α n} {x : α}
    (h : ∀ j : Fin n, InRange α (value x * value (row.get j)) ∧
      InRange α (value (acc.get j) + value x * value (row.get j))) :
    ∃ acc', addMultiple acc x row = .ok acc' := by
  choose f hf using fun j => (h j).2
  refine ⟨Vector.ofFn f, addMultiple_eq_ok_iff.mpr fun j => ⟨(h j).1, ?_⟩⟩
  have hget : (Vector.ofFn f).get j = f j := Vector.getElem_ofFn j.isLt
  rw [hget, hf]

/-- The running row starts with zeros. -/
lemma value_replicate_zero (j : Fin n) :
    value ((Vector.replicate n (Element.zero : α)).get j) = 0 := by
  simp [Vector.get, Exact.value_zero]

/-- Multiples of rows can be added one after another exactly if every term, and every sum of the
first of them with the running row, is in range. -/
lemma exists_foldlM_eq_ok_iff {row : Vector α k} {b : Grid α k n} {acc : Vector α n}
    {l : List (Fin k)} :
    (∃ acc', l.foldlM (fun acc p => addMultiple acc (row.get p) (b.row p)) acc = .ok acc') ↔
      ∀ j, (∀ p ∈ l, InRange α (value (row.get p) * value (b.entry p j))) ∧
        ∀ l', l' <+: l → InRange α (value (acc.get j) +
          (l'.map fun p => value (row.get p) * value (b.entry p j)).sum) := by
  induction l generalizing acc with
  | nil =>
      refine ⟨fun _ j => ⟨nofun, fun l' hl' => ?_⟩, fun _ => ⟨acc, rfl⟩⟩
      rw [List.prefix_nil.mp hl', List.map_nil, List.sum_nil, add_zero]
      exact ⟨acc.get j, rfl⟩
  | cons p l ih =>
      rw [List.foldlM_cons]
      constructor
      · rintro ⟨acc', h⟩ j
        obtain ⟨acc₁, h₁, h⟩ := bind_eq_ok_iff.mp h
        obtain ⟨hterm, hsum⟩ := addMultiple_eq_ok_iff.mp h₁ j
        obtain ⟨hterms, hsums⟩ := ih.mp ⟨acc', h⟩ j
        refine ⟨List.forall_mem_cons.mpr ⟨hterm, hterms⟩, fun l' hl' => ?_⟩
        rcases List.prefix_cons_iff.mp hl' with rfl | ⟨l₁, rfl, hl₁⟩
        · rw [List.map_nil, List.sum_nil, add_zero]
          exact ⟨acc.get j, rfl⟩
        · have hsum' := hsums l₁ hl₁
          rw [hsum] at hsum'
          rwa [List.map_cons, List.sum_cons, ← add_assoc]
      · intro h
        obtain ⟨acc₁, h₁⟩ : ∃ acc₁, addMultiple acc (row.get p) (b.row p) = .ok acc₁ := by
          refine exists_addMultiple_eq_ok fun j => ⟨(h j).1 p List.mem_cons_self, ?_⟩
          have hfirst := (h j).2 [p] (List.cons_prefix_cons.mpr ⟨rfl, List.nil_prefix⟩)
          rwa [List.map_singleton, List.sum_singleton] at hfirst
        obtain ⟨acc', h'⟩ : ∃ acc', l.foldlM
            (fun acc p => addMultiple acc (row.get p) (b.row p)) acc₁ = .ok acc' := by
          refine ih.mpr fun j => ⟨fun q hq => (h j).1 q (List.mem_cons_of_mem p hq), ?_⟩
          intro l' hl'
          have hsums := (h j).2 (p :: l') (List.cons_prefix_cons.mpr ⟨rfl, hl'⟩)
          rw [List.map_cons, List.sum_cons, ← add_assoc] at hsums
          rw [(addMultiple_eq_ok_iff.mp h₁ j).2]
          exact hsums
        exact ⟨acc', bind_eq_ok_iff.mpr ⟨acc₁, h₁, h'⟩⟩

/-- **When a classical product succeeds**: exactly if no term and no partial sum leaves the
range. -/
theorem exists_product_eq_ok_iff {a : Grid α m k} {b : Grid α k n} :
    (∃ c, a.product b = .ok c) ↔ ProductFits (InRange α) a.values b.values := by
  have hrow : ∀ i, (∃ row, rowProduct (a.row i) b = .ok row) ↔
      ∀ j, (∀ p, InRange α (a.values i p * b.values p j)) ∧
        ∀ l, l <+: List.finRange k →
          InRange α (l.map fun p => a.values i p * b.values p j).sum := by
    intro i
    refine exists_foldlM_eq_ok_iff.trans (forall_congr' fun j => and_congr ?_ ?_)
    · exact ⟨fun h p => h p (List.mem_finRange p), fun h p _ => h p⟩
    · refine forall_congr' fun l => imp_congr_right fun _ => ?_
      rw [value_replicate_zero, zero_add]
      rfl
  calc (∃ c, a.product b = .ok c)
      ↔ ∀ i, ∃ row, rowProduct (a.row i) b = .ok row := ?_
    _ ↔ ProductFits (InRange α) a.values b.values := forall_congr' hrow
  constructor
  · rintro ⟨c, hc⟩ i
    exact ⟨c.row i, product_eq_ok_iff.mp hc i⟩
  · intro h
    choose rows hrows using h
    refine ⟨⟨Vector.ofFn rows⟩, product_eq_ok_iff.mpr fun i => ?_⟩
    rw [hrows i]
    simp [row]

/-- **A classical product that succeeds is the product of matrices.** -/
theorem values_of_product {a : Grid α m k} {b : Grid α k n} {c : Grid α m n}
    (h : a.product b = .ok c) : c.values = a.values * b.values := by
  ext i j
  have hrow := value_of_foldlM (product_eq_ok_iff.mp h i) j
  rw [value_replicate_zero, zero_add] at hrow
  rw [Matrix.mul_apply, Fin.sum_univ_def]
  exact hrow

/-- Nothing leaves the range of numbers that have every value of the ring. -/
theorem exists_product_eq_ok (hall : ∀ r : R, InRange α r) (a : Grid α m k) (b : Grid α k n) :
    ∃ c, a.product b = .ok c :=
  exists_product_eq_ok_iff.mpr fun _ _ => ⟨fun _ => hall _, fun _ _ => hall _⟩

end MatrixReckoner.Grid
