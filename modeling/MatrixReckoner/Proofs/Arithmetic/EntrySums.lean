import MatrixReckoner.Element.Floating
import MatrixReckoner.Proofs.Arithmetic.Multiply
import MatrixReckoner.Proofs.Grid.Places

/-!
The classical product entry by entry, over numbers of which no law is assumed.

* `Grid.entrySum`: the terms of one entry, added from the left.
* `Grid.product_eq_ok_iff_entrySum`, `Grid.exists_product_eq_error_iff`: a product is the grid of
  these sums, and it fails exactly if one of them does.
* `Grid.tripleLoop`, `Grid.product_eq_tripleLoop`: three nested loops over the stores, which leave
  the product in the store that they accumulate.
-/

namespace MatrixReckoner

namespace Grid

variable {α : Type} [Element α] {m k n : ℕ}

/-! ### One entry -/

/-- The products of two lists of numbers at the same position, added one after another to zero. -/
def entrySum (u v : Fin k → α) : Except Overflow α :=
  (List.finRange k).foldlM (fun sum p => do Element.add sum (← Element.mul (u p) (v p)))
    Element.zero

example (u v : Fin 2 → Float) : entrySum u v = .ok (0 + u 0 * v 0 + u 1 * v 1) := rfl

/-- Multiples of rows are added to a running row as their entries are to its entries. -/
lemma foldlM_addMultiple_eq_ok_iff {row : Vector α k} {y : Grid α k n} {l : List (Fin k)}
    {acc acc' : Vector α n} :
    l.foldlM (fun acc p => addMultiple acc (row.get p) (y.row p)) acc = .ok acc' ↔
      ∀ j : Fin n,
        l.foldlM (fun sum p => do Element.add sum (← Element.mul (row.get p) (y.entry p j)))
          (acc.get j) = .ok (acc'.get j) := by
  induction l generalizing acc with
  | nil =>
      refine ⟨?_, fun h => ?_⟩
      · rintro ⟨⟩ j
        rfl
      · refine congrArg Except.ok (Vector.ext fun j hj => ?_)
        exact Except.ok.inj (h ⟨j, hj⟩)
  | cons p l ih =>
      simp only [List.foldlM_cons, bind_eq_ok_iff (x := addMultiple _ _ _), ih]
      constructor
      · rintro ⟨acc₁, hstep, hrest⟩ j
        exact bind_eq_ok_iff.mpr ⟨acc₁.get j, ofFnM_eq_ok_iff.mp hstep j, hrest j⟩
      · intro h
        choose sum hsum hrest using fun j => bind_eq_ok_iff.mp (h j)
        have hget : ∀ j, (Vector.ofFn sum).get j = sum j := fun j => Vector.getElem_ofFn j.isLt
        refine ⟨Vector.ofFn sum, ofFnM_eq_ok_iff.mpr fun j => ?_, fun j => ?_⟩
        · exact (hsum j).trans (congrArg Except.ok (hget j).symm)
        · rw [hget]
          exact hrest j

/-- **A product is the grid of the sums of its entries.** -/
theorem product_eq_ok_iff_entrySum {x : Grid α m k} {y : Grid α k n} {z : Grid α m n} :
    x.product y = .ok z ↔
      ∀ i j, entrySum (x.entry i) (y.entry · j) = .ok (z.entry i j) := by
  refine product_eq_ok_iff.trans (forall_congr' fun i => ?_)
  refine foldlM_addMultiple_eq_ok_iff.trans (forall_congr' fun j => ?_)
  have hzero : (Vector.replicate n (Element.zero : α)).get j = Element.zero :=
    Vector.getElem_replicate j.isLt
  rw [hzero]
  rfl

/-- A product fails exactly if the sum of one of its entries does. -/
theorem exists_product_eq_error_iff {x : Grid α m k} {y : Grid α k n} :
    (∃ o, x.product y = .error o) ↔ ∃ i j o, entrySum (x.entry i) (y.entry · j) = .error o := by
  constructor
  · rintro ⟨o, ho⟩
    by_contra hnone
    have hsums : ∀ i j, ∃ s, entrySum (x.entry i) (y.entry · j) = .ok s := by
      intro i j
      cases hsum : entrySum (x.entry i) (y.entry · j) with
      | ok s => exact ⟨s, rfl⟩
      | error o => exact absurd ⟨i, j, o, hsum⟩ hnone
    choose s hs using hsums
    have hproduct : x.product y = .ok (ofFn s) :=
      product_eq_ok_iff_entrySum.mpr fun i j => by rw [hs, entry_ofFn]
    cases ho.symm.trans hproduct
  · rintro ⟨i, j, o, ho⟩
    cases hproduct : x.product y with
    | error o' => exact ⟨o', rfl⟩
    | ok z => cases ho.symm.trans (product_eq_ok_iff_entrySum.mp hproduct i j)

/-! ### The three loops of the product -/

/-- Adds one term to the entry of the result in row `i` and column `j`: `x` times the entry of the
right operand in row `p` and the same column. -/
def addTerm (x : α) (b : Vector α (k * n)) (i : Fin m) (p : Fin k) (c : Vector α (m * n))
    (j : Fin n) : Except Overflow (Vector α (m * n)) := do
  let term ← Element.mul x (b.get (place p j))
  let sum ← Element.add (c.get (place i j)) term
  return put c (place i j) sum

/-- The classical product over row-major stores.  For every row of the left operand and every entry
in it, the multiple of a row of the right operand is added to a row of the result, entry by entry.
The store of the result is at hand, whatever its size is; `Word.product` asks for it first. -/
def tripleLoop (a : Vector α (m * k)) (b : Vector α (k * n)) : Except Overflow (Vector α (m * n)) :=
  (List.finRange m).foldlM (fun c i =>
    (List.finRange k).foldlM (fun c p =>
      (List.finRange n).foldlM (addTerm (a.get (place i p)) b i p) c) c)
    (Vector.replicate (m * n) Element.zero)

variable (x : Grid α m k) (y : Grid α k n)

/-- The innermost loop adds the multiple of a row to one row of the result. -/
lemma rowsOf_innerLoop (s : α) (i : Fin m) (p : Fin k) (c : Vector α (m * n)) :
    rowsOf <$> (List.finRange n).foldlM (addTerm s y.store i p) c =
      put (rowsOf c) i <$> addMultiple ((rowsOf c).get i) s (y.row p) := by
  let addTo (j : Fin n) (sum : α) : Except Overflow α := do
    Element.add sum (← Element.mul s (y.entry p j))
  have hstep : ∀ (c : Vector α (m * n)) (j : Fin n),
      rowsOf <$> addTerm s y.store i p c j =
        put (rowsOf c) i <$> put ((rowsOf c).get i) j <$> addTo j (((rowsOf c).get i).get j) := by
    intro c j
    rw [addTerm, get_store, ← get_rowsOf]
    simp only [addTo, map_bind, rowsOf_put, bind_pure_comp, Functor.map_map]
  rw [foldlM_hom (h := fun rows j =>
    put rows i <$> put (rows.get i) j <$> addTo j ((rows.get i).get j)) hstep]
  refine (foldlM_put_same (fun row j => put row j <$> addTo j (row.get j)) _ _).trans ?_
  rw [foldlM_put_each]
  rfl

/-- The middle loop makes one row of the result. -/
lemma rowsOf_middleLoop (i : Fin m) (c : Vector α (m * n)) :
    rowsOf <$> (List.finRange k).foldlM (fun c p =>
        (List.finRange n).foldlM (addTerm (x.store.get (place i p)) y.store i p) c) c =
      put (rowsOf c) i <$> (List.finRange k).foldlM
        (fun row p => addMultiple row (x.entry i p) (y.row p)) ((rowsOf c).get i) := by
  rw [foldlM_hom
    (h := fun rows p => put rows i <$> addMultiple (rows.get i) (x.entry i p) (y.row p))
    fun c p => by rw [rowsOf_innerLoop, get_store]]
  exact foldlM_put_same (fun row p => addMultiple row (x.entry i p) (y.row p)) _ _

/-- **The three loops leave the product in the store.** -/
theorem product_eq_tripleLoop : x.product y = ofVector <$> tripleLoop x.store y.store := by
  let rowStep (i : Fin m) (row : Vector α n) : Except Overflow (Vector α n) :=
    (List.finRange k).foldlM (fun row p => addMultiple row (x.entry i p) (y.row p)) row
  have hzero (i : Fin m) : (rowsOf (Vector.replicate (m * n) (Element.zero : α))).get i =
      Vector.replicate n Element.zero := by
    refine Vector.ext fun j hj => (get_rowsOf _ i ⟨j, hj⟩).trans ?_
    exact (Vector.getElem_replicate (place i _).isLt).trans (Vector.getElem_replicate hj).symm
  have hrows : rowsOf <$> tripleLoop x.store y.store =
      Vector.ofFnM fun i => rowProduct (x.row i) y := by
    rw [tripleLoop, foldlM_hom (h := fun rows i => put rows i <$> rowStep i (rows.get i))
      fun c i => rowsOf_middleLoop x y i c, foldlM_put_each]
    refine congrArg Vector.ofFnM (funext fun i => ?_)
    rw [hzero]
    rfl
  rw [product, ← hrows, Functor.map_map]
  rfl

end Grid

end MatrixReckoner
