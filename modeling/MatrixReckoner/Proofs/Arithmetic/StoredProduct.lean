import MatrixReckoner.Proofs.Arithmetic.EntrySums
import MatrixReckoner.Proofs.Grid.Capacity

/-!
The classical product over machine words and flat stores, from the request for the store of the
result to its last entry.

* `Word.product`: three nested loops, every place of which is computed and looked up; `Word.addTerm`
  and `Word.addRow` are the passes of the innermost and of the outermost one.
* `Word.addTerm_toList`, `Word.addRow_toList`: what the passes do is what those of `Grid.tripleLoop`
  do.
* `Word.product_eq`, `Word.product_eq_error`: the product, and what becomes of one that is too large
  to store.
* `DenseMatrix.product_eq_entrySums`: every entry is the sum of its terms, added from the left.
-/

namespace MatrixReckoner

variable {α : Type} [Element α]

namespace Word

/-! ### The loops -/

/-- The entry at one place of a store. -/
def read (data : List α) (place : UInt64) : Except WordFault α :=
  data[place.toNat]?.elim (.error .outside) .ok

/-- An answer of element arithmetic, as one of a call on words. -/
def ofArithmetic {β : Type} (answer : Except Overflow β) : Except WordFault β :=
  answer.mapError fun o => .refused (.overflow o)

/-- Adds one term to the entry of the result in row `i` and column `j`: `x` times the entry of the
right operand in row `p` and the same column. -/
def addTerm (x : α) (b : WordMatrix α) (i p : UInt64) (c : List α) (j : UInt64) :
    Except WordFault (List α) := do
  let target ← place b.cols i j
  let sum ← read c target
  let y ← read b.data (← place b.cols p j)
  let sum ← ofArithmetic (do Element.add sum (← Element.mul x y))
  write c target sum

/-- Adds the multiples of the rows of the right operand to row `i` of the result. -/
def addRow (a b : WordMatrix α) (i : UInt64) (c : List α) : Except WordFault (List α) :=
  (List.finRange a.cols.toNat).foldlM (fun c (p : Fin a.cols.toNat) => do
    let x ← read a.data (← place a.cols i (.ofNat p))
    (List.finRange b.cols.toNat).foldlM (fun c (j : Fin b.cols.toNat) =>
      addTerm x b i (.ofNat p) c (.ofNat j)) c) c

/-- The classical product.  A store of zeros is asked for before any entry is looked at; its shape
is not checked. -/
def product (a b : WordMatrix α) : Except WordFault (WordMatrix α) :=
  if a.cols = b.rows then do
    let zeros ← filled a.rows b.cols Element.zero
    let data ← (List.finRange a.rows.toNat).foldlM (fun c (i : Fin a.rows.toNat) =>
      addRow a b (.ofNat i) c) zeros.data
    return { zeros with data }
  else
    .error (.refused (.incompatibleShape ⟨a.rows.toNat, a.cols.toNat⟩ ⟨b.rows.toNat, b.cols.toNat⟩))

/-! ### Passes -/

section Places

variable {β : Type} {m n : ℕ} {c : Vector β (m * n)} {i : Fin m} {j : Fin n} {w : UInt64}

lemma place_lt_length (hw : w.toNat = i.val * n + j.val) : w.toNat < c.toList.length := by
  rw [hw, Vector.length_toList]
  exact Grid.place_lt i j

lemma read_toList (hw : w.toNat = i.val * n + j.val) :
    read c.toList w = pure (c.get (Grid.place i j)) := by
  rw [read, List.getElem?_eq_getElem (place_lt_length hw)]
  simp only [hw]
  rfl

lemma write_toList (hw : w.toNat = i.val * n + j.val) (y : β) :
    write c.toList w y = pure (Grid.put c (Grid.place i j) y).toList := by
  rw [write, if_pos (place_lt_length hw), hw]
  exact congrArg Except.ok (Vector.toList_set (Grid.place i j).isLt).symm

end Places

variable {m k n : UInt64} (a : Vector α (m.toNat * k.toNat)) (b : Vector α (k.toNat * n.toNat))

lemma addTerm_toList (hright : k.toNat * n.toNat < 2 ^ 64) (hresult : m.toNat * n.toNat < 2 ^ 64)
    (x : α) (i : Fin m.toNat) (p : Fin k.toNat) (c : Vector α (m.toNat * n.toNat))
    (j : Fin n.toNat) :
    addTerm x ⟨k, n, b.toList⟩ (.ofNat i) (.ofNat p) c.toList (.ofNat j) =
      Vector.toList <$> ofArithmetic (Grid.addTerm x b i p c j) := by
  obtain ⟨target, htarget, hvalue⟩ := exists_place hresult i j
  obtain ⟨source, hsource, hvalue'⟩ := exists_place hright p j
  rw [addTerm, htarget, pure_bind, read_toList hvalue, pure_bind, hsource, pure_bind,
    read_toList hvalue', pure_bind, Grid.addTerm]
  simp only [ofArithmetic, mapError_bind, map_bind, bind_assoc, write_toList hvalue]
  rfl

/-- A pass of the outermost loop. -/
lemma addRow_toList (hleft : m.toNat * k.toNat < 2 ^ 64) (hright : k.toNat * n.toNat < 2 ^ 64)
    (hresult : m.toNat * n.toNat < 2 ^ 64) (i : Fin m.toNat) (c : Vector α (m.toNat * n.toNat)) :
    addRow ⟨m, k, a.toList⟩ ⟨k, n, b.toList⟩ (.ofNat i) c.toList =
      Vector.toList <$> ofArithmetic ((List.finRange k.toNat).foldlM (fun c p =>
        (List.finRange n.toNat).foldlM (Grid.addTerm (a.get (Grid.place i p)) b i p) c) c) := by
  rw [addRow, ofArithmetic, mapError_foldlM]
  refine (Grid.foldlM_hom (fun c p => ?_) _ c).symm
  obtain ⟨source, hsource, hvalue⟩ := exists_place hleft i p
  rw [hsource, pure_bind, read_toList hvalue, pure_bind, mapError_foldlM]
  exact Grid.foldlM_hom (fun c j => (addTerm_toList b hright hresult _ i p c j).symm) _ c

/-- All passes, over a store of zeros. -/
lemma foldlM_addRow (hleft : m.toNat * k.toNat < 2 ^ 64) (hright : k.toNat * n.toNat < 2 ^ 64)
    (hresult : m.toNat * n.toNat < 2 ^ 64) :
    (List.finRange m.toNat).foldlM (fun c (i : Fin m.toNat) =>
        addRow ⟨m, k, a.toList⟩ ⟨k, n, b.toList⟩ (.ofNat i) c)
        (Vector.replicate (m.toNat * n.toNat) Element.zero).toList =
      Vector.toList <$> ofArithmetic (Grid.tripleLoop a b) := by
  rw [Grid.tripleLoop, ofArithmetic, mapError_foldlM]
  exact (Grid.foldlM_hom (fun c i => (addRow_toList a b hleft hright hresult i c).symm) _ _).symm

/-! ### The product -/

/-- The dimensions of a shape that fits are words. -/
lemma exists_words (hα : HasWordSize α) {rows cols : ℕ}
    (h : Shape.Fits (Element.bytes α) ⟨rows, cols⟩) :
    (∃ w : UInt64, w.toNat = rows) ∧ ∃ w : UInt64, w.toNat = cols := by
  have hentries : rows * cols < 2 ^ 64 := lt_of_fits hα h
  have hrows : rows < 2 ^ 64 := (Nat.le_mul_of_pos_right rows h.2.1).trans_lt hentries
  have hcols : cols < 2 ^ 64 := (Nat.le_mul_of_pos_left cols h.1).trans_lt hentries
  exact ⟨⟨.ofNat rows, UInt64.toNat_ofNat_of_lt' hrows⟩, .ofNat cols,
    UInt64.toNat_ofNat_of_lt' hcols⟩

section Product

variable {m k n : ℕ} (x : Grid α m k) (y : Grid α k n)

/-- A product that can be stored is that of the grids. -/
theorem product_eq (hα : HasWordSize α) (hleft : Shape.Fits (Element.bytes α) ⟨m, k⟩)
    (hright : Shape.Fits (Element.bytes α) ⟨k, n⟩)
    (hresult : Shape.Fits (Element.bytes α) ⟨m, n⟩) :
    product (DenseMatrix.inWords ⟨m, k, x⟩) (DenseMatrix.inWords ⟨k, n, y⟩) =
      WordFault.ofAnswer (DenseMatrix.product ⟨m, k, x⟩ ⟨k, n, y⟩) := by
  obtain ⟨⟨m, rfl⟩, k, rfl⟩ := exists_words hα hleft
  obtain ⟨-, n, rfl⟩ := exists_words hα hright
  have hzeros : (Grid.replicate m.toNat n.toNat (Element.zero : α)).toList =
      (Vector.replicate (m.toNat * n.toNat) Element.zero).toList := by
    rw [Grid.toList_replicate, Vector.toList_replicate]
  have hloop := foldlM_addRow x.store y.store (lt_of_fits hα hleft) (lt_of_fits hα hright)
    (lt_of_fits hα hresult)
  rw [Grid.toList_store, Grid.toList_store] at hloop
  rw [DenseMatrix.inWords_of_shape rfl, DenseMatrix.inWords_of_shape rfl, product, if_pos rfl,
    filled_eq hα hresult, pure_bind, DenseMatrix.inWords_of_shape rfl]
  simp only [DenseMatrix.toList]
  rw [hzeros, hloop, bind_map_left, DenseMatrix.product_mk, Grid.product_eq_tripleLoop]
  cases Grid.tripleLoop x.store y.store with
  | error o => rfl
  | ok c =>
      refine congrArg Except.ok ?_
      rw [DenseMatrix.inWords_of_shape rfl, DenseMatrix.toList, Grid.toList_ofVector]

/-- A product that is too large to store ends before any entry is looked at. -/
theorem product_eq_error (hα : HasWordSize α) (hleft : Shape.Fits (Element.bytes α) ⟨m, k⟩)
    (hright : Shape.Fits (Element.bytes α) ⟨k, n⟩)
    (hresult : ¬ Shape.Fits (Element.bytes α) ⟨m, n⟩) :
    product (DenseMatrix.inWords ⟨m, k, x⟩) (DenseMatrix.inWords ⟨k, n, y⟩) =
      .error (if m * n < 2 ^ 64 then .tooLarge else .wrapped) := by
  obtain ⟨⟨m, rfl⟩, k, rfl⟩ := exists_words hα hleft
  obtain ⟨-, n, rfl⟩ := exists_words hα hright
  rw [DenseMatrix.inWords_of_shape rfl, DenseMatrix.inWords_of_shape rfl, product, if_pos rfl,
    filled_eq_error hleft.1 hright.2.1 hresult]
  rfl

end Product

end Word

namespace DenseMatrix

open MatrixError (ofArithmetic)

section Answers

variable {β : Type} {m n : ℕ} {z : Grid β m n} {answer : Except Overflow (Grid β m n)}

lemma ofAnswer_eq_ok_iff :
    WordFault.ofAnswer ((⟨m, n, ·⟩) <$> ofArithmetic answer) = .ok (inWords ⟨m, n, z⟩) ↔
      answer = .ok z := by
  cases answer with
  | error o => constructor <;> rintro ⟨⟩
  | ok z' =>
      refine ⟨fun h => ?_, ?_⟩
      · have hlist : z'.toList = z.toList := congrArg WordMatrix.data (Except.ok.inj h)
        exact congrArg Except.ok (Grid.toList_inj.mp hlist)
      · rintro ⟨⟩
        rfl

lemma ofAnswer_eq_overflow_iff {o : Overflow} :
    WordFault.ofAnswer ((⟨m, n, ·⟩) <$> ofArithmetic answer) = .error (.refused (.overflow o)) ↔
      answer = .error o := by
  cases answer with
  | error o' => constructor <;> rintro ⟨⟩ <;> rfl
  | ok z' => constructor <;> rintro ⟨⟩

end Answers

/-- **Every entry of a product is the sum of its terms, added from the left**, in the arithmetic of
the numbers and by no law of it, if the product has a shape that can be stored.  The call then fails
exactly if the sum of some entry does, with an overflow.  It is made of three nested loops over the
row-major stores, none of whose places is outside of its store, and agrees with the product on
numbers, failures included.  A product that is too large to store ends when its store is asked for,
whatever the entries are.

The four kinds of numbers that are stored have a size that is a word; the statement is about all
numbers that have one. -/
theorem product_eq_entrySums :
    (HasWordSize Float ∧ HasWordSize Float32 ∧ ∀ w, HasWordSize (BoundedInt w)) ∧
    ∀ (α : Type) [Element α], HasWordSize α → ∀ (m k n : ℕ) (x : Grid α m k) (y : Grid α k n),
      Shape.Fits (Element.bytes α) ⟨m, k⟩ → Shape.Fits (Element.bytes α) ⟨k, n⟩ →
      let call := Word.product (inWords ⟨m, k, x⟩) (inWords ⟨k, n, y⟩)
      (Shape.Fits (Element.bytes α) ⟨m, n⟩ →
        (∀ z : Grid α m n, call = .ok (inWords ⟨m, n, z⟩) ↔
          ∀ i j, Grid.entrySum (x.entry i) (y.entry · j) = .ok (z.entry i j)) ∧
        ((∃ o, call = .error (.refused (.overflow o))) ↔
          ∃ i j o, Grid.entrySum (x.entry i) (y.entry · j) = .error o) ∧
        Word.Answers call (product ⟨m, k, x⟩ ⟨k, n, y⟩) ∧
        product ⟨m, k, x⟩ ⟨k, n, y⟩ =
          (⟨m, n, .ofVector ·⟩) <$> ofArithmetic (Grid.tripleLoop x.store y.store)) ∧
      (¬ Shape.Fits (Element.bytes α) ⟨m, n⟩ →
        call = .error (if m * n < 2 ^ 64 then .tooLarge else .wrapped)) := by
  refine ⟨⟨by decide, by decide, hasWordSize_boundedInt⟩, fun α _ hα m k n x y hleft hright => ?_⟩
  refine ⟨fun hresult => ?_, Word.product_eq_error x y hα hleft hright⟩
  have hcall := Word.product_eq x y hα hleft hright hresult
  have hanswers : Word.Answers _ (product ⟨m, k, x⟩ ⟨k, n, y⟩) := .of_eq hcall
  rw [product_mk] at hcall
  refine ⟨fun z => ?_, ?_, hanswers, ?_⟩
  · rw [← Grid.product_eq_ok_iff_entrySum, hcall]
    exact ofAnswer_eq_ok_iff
  · rw [← Grid.exists_product_eq_error_iff, hcall]
    exact exists_congr fun o => ofAnswer_eq_overflow_iff
  · rw [product_mk, Grid.product_eq_tripleLoop]
    cases Grid.tripleLoop x.store y.store <;> rfl

/-- A row times a column, once in range and once not, and columns times rows for whose products
there is no store, although every entry would be one. -/
theorem product_eq_entrySums_at_the_limit :
    let x : BoundedInt .w32 := .one
    let top : BoundedInt .w32 := ⟨2147483647, by decide, by decide⟩
    let ones (m n : ℕ) : WordMatrix (BoundedInt .w32) := inWords ⟨m, n, .replicate m n x⟩
    Word.product (inWords ⟨1, 2, .ofVector #v[x, .zero]⟩) (ones 2 1) = .ok (ones 1 1) ∧
      (∃ o, Word.product (inWords ⟨1, 2, .ofVector #v[top, x]⟩) (ones 2 1) =
        .error (.refused (.overflow o))) ∧
      Word.product (ones (2 ^ 31) 1) (ones 1 (2 ^ 30)) = .error .tooLarge ∧
      Word.product (ones (2 ^ 32) 1) (ones 1 (2 ^ 32)) = .error .wrapped := by
  intro x top ones
  have hproduct := product_eq_entrySums.2 (BoundedInt .w32) (by decide)
  have hrow := hproduct 1 2 1 (.ofVector #v[x, .zero]) (.replicate 2 1 x) (by decide) (by decide)
  have hrow' := hproduct 1 2 1 (.ofVector #v[top, x]) (.replicate 2 1 x) (by decide) (by decide)
  have hcolumn (m n : ℕ) := hproduct m 1 n (.replicate m 1 x) (.replicate 1 n x)
  refine ⟨((hrow.1 (by decide)).1 (.replicate 1 1 x)).mpr (by decide),
    (hrow'.1 (by decide)).2.1.mpr ⟨0, 0, .add, by decide⟩, ?_, ?_⟩
  · exact (hcolumn _ _ (by decide) (by decide)).2 (by decide)
  · exact (hcolumn _ _ (by decide) (by decide)).2 (by decide)

end DenseMatrix

end MatrixReckoner
