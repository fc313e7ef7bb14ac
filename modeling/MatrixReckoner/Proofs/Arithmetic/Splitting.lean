import MatrixReckoner.Proofs.Arithmetic.Minors
import MatrixReckoner.Proofs.Grid.Rows

/-!
A square matrix of even order is split into its quarters, and four square matrices of one order are
joined: the one undoes the other.

* `Grid.segment`, `Grid.block`: entries that follow each other in a row-major list, and the entries
  of such a list that are a block of the grid.
* `Grid.block_toList`: a block of a grid, row after row.
* `Blocks.joinedList`, `Quadrants.toList_join`: the rows of four blocks, two by two.
* `DenseMatrix.Quartered`: four matrices are the quarters of a matrix.
* `DenseMatrix.exists_quadrants_eq_ok`, `Blocks.exists_join_eq_ok`, `Blocks.join_eq_shapeMismatch`:
  what is split and joined, and what is not.
* `DenseMatrix.quadrants_and_join`: splitting and joining are inverse.
-/

namespace MatrixReckoner

variable {α : Type}

/-- A list is computed element by element up to the first failure. -/
lemma mapM_eq_error {β γ ε : Type} {f : β → Except ε γ} {before behind : List β} {b : β} {e : ε}
    (hbefore : ∀ b' ∈ before, ∃ c, f b' = .ok c) (hb : f b = .error e) :
    (before ++ b :: behind).mapM f = .error e := by
  induction before with
  | nil =>
      rw [List.nil_append, List.mapM_cons, hb]
      rfl
  | cons b' before ih =>
      obtain ⟨c, hc⟩ := hbefore b' List.mem_cons_self
      rw [List.cons_append, List.mapM_cons, hc,
        ih fun b hb => hbefore b (List.mem_cons_of_mem _ hb)]
      rfl

namespace Grid

variable {m n h c k r : ℕ}

/-! ### Segments of row-major lists -/

/-- So many entries of a list, from a place on. -/
def segment (data : List α) (start k : ℕ) : List α :=
  (data.drop start).take k

/-- The entries of a row-major list with rows of `n` entries that are in `h` rows from the row `r`
on and in `h` columns from the column `c` on. -/
def block (data : List α) (n h r c : ℕ) : List α :=
  (List.range h).flatMap fun i => segment data ((r + i) * n + c) h

lemma flatMap_range (f : ℕ → List α) :
    (List.range h).flatMap f = (List.ofFn fun i : Fin h => f i).flatten := by
  rw [List.flatMap_def]
  exact congrArg List.flatten (List.ext_getElem (by simp) fun i hi hi' => by simp)

/-- In rows of one length, a segment that does not go on behind a row is one of that row. -/
lemma segment_flatten_ofFn {f : Fin m → List α} (hf : ∀ i, (f i).length = n) (i : Fin m)
    (hk : c + k ≤ n) : segment (List.ofFn f).flatten (i * n + c) k = segment (f i) c k := by
  induction m with
  | zero => exact i.elim0
  | succ m ih =>
      rw [List.ofFn_succ, List.flatten_cons]
      cases i using Fin.cases with
      | zero =>
          have hlength : c + k ≤ (f 0).length := (hf 0).symm ▸ hk
          rw [Fin.val_zero, Nat.zero_mul, Nat.zero_add, segment, segment,
            List.drop_append_of_le_length (by omega), List.take_append_of_le_length]
          rw [List.length_drop]
          omega
      | succ i =>
          have hstart : (i.succ : ℕ) * n + c = (f 0).length + (i * n + c) := by
            rw [hf, Fin.val_succ, Nat.succ_mul]
            omega
          have hdrop : segment (f 0 ++ (List.ofFn fun i => f i.succ).flatten)
              ((f 0).length + (i * n + c)) k =
                segment (List.ofFn fun i => f i.succ).flatten (i * n + c) k :=
            congrArg (List.take k) (List.drop_length_add_append _)
          rw [hstart, hdrop]
          exact ih (fun i => hf i.succ) i

lemma segment_ofFn (f : Fin n → α) (hk : c + k ≤ n) :
    segment (List.ofFn f) c k = List.ofFn fun j : Fin k => f ⟨c + j, by omega⟩ := by
  refine List.ext_getElem ?_ fun j hj hj' => ?_
  · simp only [segment, List.length_take, List.length_drop, List.length_ofFn]
    omega
  · simp [segment]

lemma toList_ofFn (f : Fin m → Fin n → α) :
    (ofFn f).toList = (List.ofFn fun i => List.ofFn (f i)).flatten :=
  congrArg List.flatten (toRows_ofFn f)

/-- A segment of a grid that does not go on behind a row, entry by entry. -/
lemma segment_toList (g : Grid α m n) (i : Fin m) (hk : c + k ≤ n) :
    segment g.toList (i * n + c) k = List.ofFn fun j : Fin k => g.entry i ⟨c + j, by omega⟩ := by
  have hg : g.toList = (List.ofFn fun i => List.ofFn (g.entry i)).flatten := by
    rw [← toList_ofFn, ofFn_entry]
  rw [hg, segment_flatten_ofFn (fun i => List.length_ofFn) i hk, segment_ofFn _ hk]

/-- A row of a grid as a segment. -/
lemma segment_toList_row (g : Grid α m n) (i : Fin m) :
    segment g.toList (i * n) n = List.ofFn (g.entry i) := by
  refine (segment_toList g i (c := 0) (Nat.zero_add n).le).trans ?_
  simp only [Nat.zero_add, Fin.eta]

/-- The rows of a block are segments of the rows of the grid. -/
lemma block_toList (g : Grid α m n) (hr : r + h ≤ m) (hc : c + h ≤ n) :
    block g.toList n h r c =
      (ofFn fun i j : Fin h => g.entry ⟨r + i, by omega⟩ ⟨c + j, by omega⟩).toList := by
  rw [block, flatMap_range, toList_ofFn]
  refine congrArg (fun f => (List.ofFn f).flatten) (funext fun i => ?_)
  exact segment_toList g ⟨r + i, by omega⟩ hc

/-- The rows of two grids of one shape, side by side. -/
def sideBySide (x y : Grid α m n) : List (List α) :=
  List.ofFn fun i => List.ofFn (x.entry i) ++ List.ofFn (y.entry i)

lemma flatten_sideBySide (x y : Grid α m n) :
    (sideBySide x y).flatten =
      (List.range m).flatMap fun i => segment x.toList (i * n) n ++ segment y.toList (i * n) n := by
  rw [flatMap_range]
  simp only [segment_toList_row]
  rfl

end Grid

/-! ### Quarters as lists -/

/-- The rows of four blocks of order `h`: those of the blocks above and then those of the blocks
below, each row of a block on the left before the row of the block on its right. -/
def Blocks.joinedList (q : Blocks α) (h : ℕ) : List α :=
  [(q.topLeft, q.topRight), (q.bottomLeft, q.bottomRight)].flatMap fun (left, right) =>
    (List.range h).flatMap fun i =>
      Grid.segment left.toList (i * h) h ++ Grid.segment right.toList (i * h) h

namespace Quadrants

variable {h : ℕ}

lemma toRows_join (q : Quadrants α h) :
    q.join.toRows =
      Grid.sideBySide q.topLeft q.topRight ++ Grid.sideBySide q.bottomLeft q.bottomRight := by
  have hrows : (fun i => List.ofFn fun j => Fin.addCases
      (fun i => Fin.addCases (q.topLeft.entry i) (q.topRight.entry i) j)
      (fun i => Fin.addCases (q.bottomLeft.entry i) (q.bottomRight.entry i) j) i) =
        Fin.append (fun i => List.ofFn (q.topLeft.entry i) ++ List.ofFn (q.topRight.entry i))
          fun i => List.ofFn (q.bottomLeft.entry i) ++ List.ofFn (q.bottomRight.entry i) := by
    funext i
    refine Fin.addCases (fun i => ?_) (fun i => ?_) i
    · simp only [Fin.addCases_left, Fin.append_left]
      exact List.ofFn_fin_append _ _
    · simp only [Fin.addCases_right, Fin.append_right]
      exact List.ofFn_fin_append _ _
  rw [join, Grid.toRows_ofFn, hrows, List.ofFn_fin_append]
  rfl

/-- What four quarters make up lists their rows. -/
lemma toList_join (q : Quadrants α h) : q.join.toList = q.blocks.joinedList h := by
  rw [Grid.toList, toRows_join, List.flatten_append, Grid.flatten_sideBySide,
    Grid.flatten_sideBySide, Blocks.joinedList, List.flatMap_cons, List.flatMap_singleton]
  rfl

end Quadrants

/-! ### What is split -/

namespace DenseMatrix

variable {a : DenseMatrix α}

/-- The four matrices are the quarters of the matrix. -/
structure Quartered (a : DenseMatrix α) (q : Blocks α) : Prop where
  /-- Each has half the order of the matrix. -/
  shape : ∀ b ∈ q.toList, b.shape = ⟨a.rows / 2, a.rows / 2⟩
  /-- What stands in a quarter stands in the matrix, below or to the right of the other quarters. -/
  get : ∀ i < a.rows / 2, ∀ j < a.rows / 2,
    q.topLeft.get i j = a.get i j ∧
    q.topRight.get i j = a.get i (j + a.rows / 2) ∧
    q.bottomLeft.get i j = a.get (i + a.rows / 2) j ∧
    q.bottomRight.get i j = a.get (i + a.rows / 2) (j + a.rows / 2)
  /-- The lists of the quarters are segments of the rows of the matrix. -/
  toList : q.toList.map toList =
    [(0, 0), (0, a.rows / 2), (a.rows / 2, 0), (a.rows / 2, a.rows / 2)].map fun (r, c) =>
      Grid.block a.toList a.rows (a.rows / 2) r c

/-- A matrix with two halves of rows and of columns is a grid of twice an order. -/
lemma exists_grid (hsquare : a.rows = a.cols) (heven : a.rows % 2 = 0) :
    ∃ (h : ℕ) (x : Grid α (h + h) (h + h)), a = ⟨h + h, h + h, x⟩ := by
  obtain ⟨m, n, x⟩ := a
  obtain rfl : m = n := hsquare
  obtain ⟨h, rfl⟩ := Nat.even_iff.mpr heven
  exact ⟨h, x, rfl⟩

lemma exists_of_shape {m n : ℕ} (h : a.shape = ⟨m, n⟩) : ∃ x : Grid α m n, a = ⟨m, n, x⟩ := by
  obtain ⟨m', n', x⟩ := a
  obtain ⟨hm, hn⟩ := Shape.mk.inj h
  obtain rfl : m' = m := hm
  obtain rfl : n' = n := hn
  exact ⟨x, rfl⟩

/-- The quarters of a matrix list segments of its rows. -/
lemma toList_quadrants {h : ℕ} (x : Grid α (h + h) (h + h)) :
    x.quadrants.blocks.toList.map toList =
      [(0, 0), (0, h), (h, 0), (h, h)].map fun (r, c) => Grid.block x.toList (h + h) h r c := by
  have hblock : ∀ {r c : ℕ}, r + h ≤ h + h → c + h ≤ h + h → ∀ {f : Fin h → Fin h → α},
      (∀ (i j : Fin h) (hi : r + i < h + h) (hj : c + j < h + h),
        f i j = x.entry ⟨r + i, hi⟩ ⟨c + j, hj⟩) →
      (Grid.ofFn f).toList = Grid.block x.toList (h + h) h r c := by
    intro r c hr hc f hf
    rw [Grid.block_toList x hr hc]
    congr 2
    funext i j
    exact hf i j _ _
  simp only [Quadrants.blocks, Grid.quadrants, Blocks.toList, List.map_cons, List.map_nil,
    List.cons.injEq, and_true]
  have hfirst : 0 + h ≤ h + h := by omega
  refine ⟨hblock hfirst hfirst ?_, hblock hfirst le_rfl ?_, hblock le_rfl hfirst ?_,
    hblock le_rfl le_rfl ?_⟩ <;> intro i j hi hj <;> congr 1 <;> exact Fin.ext (by simp)

lemma quartered_mk {h : ℕ} (x : Grid α (h + h) (h + h)) :
    Quartered ⟨h + h, h + h, x⟩ x.quadrants.blocks := by
  have hhalf : (h + h) / 2 = h := by omega
  refine ⟨?_, ?_, ?_⟩ <;> dsimp only <;> rw [hhalf]
  · simp [Quadrants.blocks, Blocks.toList, shape]
  · intro i hi j hj
    have hget : ∀ f : Fin h → Fin h → α,
        get ⟨h, h, .ofFn f⟩ i j = .ok (f ⟨i, hi⟩ ⟨j, hj⟩) := fun f =>
      (get_mk (.ofFn f) ⟨i, hi⟩ ⟨j, hj⟩).trans (congrArg Except.ok (Grid.entry_ofFn f _ _))
    have hplace : ∀ i j : Fin (h + h), get ⟨h + h, h + h, x⟩ i j = .ok (x.entry i j) := get_mk x
    rw [Nat.add_comm i h, Nat.add_comm j h]
    exact ⟨(hget _).trans (hplace (.castAdd h ⟨i, hi⟩) (.castAdd h ⟨j, hj⟩)).symm,
      (hget _).trans (hplace (.castAdd h ⟨i, hi⟩) (.natAdd h ⟨j, hj⟩)).symm,
      (hget _).trans (hplace (.natAdd h ⟨i, hi⟩) (.castAdd h ⟨j, hj⟩)).symm,
      (hget _).trans (hplace (.natAdd h ⟨i, hi⟩) (.natAdd h ⟨j, hj⟩)).symm⟩
  · exact toList_quadrants x

lemma quadrants_eq_notSquare (h : a.rows ≠ a.cols) :
    a.quadrants = .error (.notSquare a.rows a.cols) := by
  rw [quadrants, squareCells, dif_neg h]
  rfl

lemma quadrants_eq_invalidDimension (hsquare : a.rows = a.cols) (hodd : a.rows % 2 ≠ 0) :
    a.quadrants = .error (.invalidDimension a.rows a.rows) := by
  have hne : ¬ a.rows = a.rows / 2 + a.rows / 2 := by omega
  rw [quadrants, squareCells, dif_pos hsquare]
  exact dif_neg hne

/-- A square matrix of even order is split into quarters, which are joined to it again. -/
lemma exists_quadrants_eq_ok (hsquare : a.rows = a.cols) (heven : a.rows % 2 = 0) :
    ∃ q, a.quadrants = .ok q ∧ a.Quartered q ∧ q.join = .ok a := by
  obtain ⟨h, x, rfl⟩ := exists_grid hsquare heven
  refine ⟨x.quadrants.blocks, quadrants_mk x, quartered_mk x, ?_⟩
  rw [join_blocks, Grid.join_quadrants]

end DenseMatrix

/-! ### What is joined -/

namespace Blocks

variable {q : Blocks α} {h : ℕ}

/-- Square matrices of one order are grids of that order. -/
lemma exists_blocks (hq : ∀ b ∈ q.toList, b.shape = ⟨h, h⟩) :
    ∃ p : Quadrants α h, q = p.blocks := by
  obtain ⟨b₁, b₂, b₃, b₄⟩ := q
  simp only [toList, List.forall_mem_cons, List.not_mem_nil, false_implies, implies_true,
    and_true] at hq
  obtain ⟨h₁, h₂, h₃, h₄⟩ := hq
  obtain ⟨x₁, rfl⟩ := DenseMatrix.exists_of_shape h₁
  obtain ⟨x₂, rfl⟩ := DenseMatrix.exists_of_shape h₂
  obtain ⟨x₃, rfl⟩ := DenseMatrix.exists_of_shape h₃
  obtain ⟨x₄, rfl⟩ := DenseMatrix.exists_of_shape h₄
  exact ⟨⟨x₁, x₂, x₃, x₄⟩, rfl⟩

/-- Four square matrices of one order are joined, row by row, to a matrix of which they are the
quarters. -/
lemma exists_join_eq_ok (hq : ∀ b ∈ q.toList, b.shape = ⟨h, h⟩) :
    ∃ a, q.join = .ok a ∧ a.shape = ⟨2 * h, 2 * h⟩ ∧ a.toList = q.joinedList h ∧
      a.Quartered q ∧ a.quadrants = .ok q := by
  obtain ⟨p, rfl⟩ := exists_blocks hq
  have hquartered := DenseMatrix.quartered_mk p.join
  have hquadrants := DenseMatrix.quadrants_mk p.join
  rw [Grid.quadrants_join] at hquartered hquadrants
  refine ⟨_, DenseMatrix.join_blocks p, ?_, p.toList_join, hquartered, hquadrants⟩
  rw [Nat.two_mul]
  rfl

/-- The four blocks are checked one after the other. -/
lemma join_checks (q : Blocks α) :
    (fun _ => ()) <$> q.join =
      (fun _ => ()) <$> q.toList.mapM (DenseMatrix.cellsOfOrder q.topLeft.rows) := by
  simp [join, toList, List.mapM_cons]

/-- The first matrix that is not square, or of another order than the first one has rows, is
refused. -/
lemma join_eq_shapeMismatch {before behind : List (DenseMatrix α)} {b : DenseMatrix α}
    (hq : q.toList = before ++ b :: behind)
    (hbefore : ∀ b' ∈ before, b'.shape = ⟨q.topLeft.rows, q.topLeft.rows⟩)
    (hb : b.shape ≠ ⟨q.topLeft.rows, q.topLeft.rows⟩) :
    q.join = .error (.shapeMismatch ⟨q.topLeft.rows, q.topLeft.rows⟩ b.shape) := by
  have herror : b.cellsOfOrder q.topLeft.rows =
      .error (.shapeMismatch ⟨q.topLeft.rows, q.topLeft.rows⟩ b.shape) :=
    dif_neg fun h => hb (congrArg₂ Shape.mk h.1 h.2)
  have hok : ∀ b' ∈ before, ∃ x, b'.cellsOfOrder q.topLeft.rows = .ok x := fun b' hb' =>
    ⟨_, dif_pos (Shape.mk.inj (hbefore b' hb'))⟩
  have hjoin := q.join_checks
  rw [hq, mapM_eq_error hok herror] at hjoin
  cases hresult : q.join with
  | ok a => rw [hresult] at hjoin; cases hjoin
  | error e => rw [hresult] at hjoin; cases hjoin; rfl

end Blocks

/-! ### Both -/

namespace DenseMatrix

/-- **Splitting and joining are inverse.**  A square matrix of even order is split into its
quarters, and these are joined to the matrix.  Four square matrices of one order are joined, row by
row, to a matrix that is split into them.

Any other matrix is refused because it is not square, or because of its order.  Of any other four
matrices, the first one is refused that does not have as many rows and as many columns as the first
one has rows. -/
theorem quadrants_and_join (α : Type) :
    (∀ a : DenseMatrix α,
      (a.rows ≠ a.cols → a.quadrants = .error (.notSquare a.rows a.cols)) ∧
      (a.rows = a.cols → a.rows % 2 ≠ 0 →
        a.quadrants = .error (.invalidDimension a.rows a.rows)) ∧
      (a.rows = a.cols → a.rows % 2 = 0 →
        ∃ q, a.quadrants = .ok q ∧ a.Quartered q ∧ q.join = .ok a)) ∧
    ∀ q : Blocks α,
      (∀ h, (∀ b ∈ q.toList, b.shape = ⟨h, h⟩) →
        ∃ a, q.join = .ok a ∧ a.shape = ⟨2 * h, 2 * h⟩ ∧ a.toList = q.joinedList h ∧
          a.Quartered q ∧ a.quadrants = .ok q) ∧
      ∀ before b behind, q.toList = before ++ b :: behind →
        (∀ b' ∈ before, b'.shape = ⟨q.topLeft.rows, q.topLeft.rows⟩) →
        b.shape ≠ ⟨q.topLeft.rows, q.topLeft.rows⟩ →
        q.join = .error (.shapeMismatch ⟨q.topLeft.rows, q.topLeft.rows⟩ b.shape) :=
  ⟨fun _ => ⟨quadrants_eq_notSquare, quadrants_eq_invalidDimension, exists_quadrants_eq_ok⟩,
    fun _ => ⟨fun _ => Blocks.exists_join_eq_ok, fun _ _ _ => Blocks.join_eq_shapeMismatch⟩⟩

/-- The matrix with the rows 1 2 and 3 4, a matrix that is not square, one of odd order, and four
matrices of which the third one is the first of another shape. -/
theorem quadrants_and_join_of_digits :
    let a : DenseMatrix ℕ := ⟨2, 2, .ofVector #v[1, 2, 3, 4]⟩
    let single (x : ℕ) : DenseMatrix ℕ := ⟨1, 1, .ofVector #v[x]⟩
    let wide : DenseMatrix ℕ := ⟨1, 2, .ofVector #v[1, 2]⟩
    let q : Blocks ℕ := ⟨single 1, single 2, single 3, single 4⟩
    (a.quadrants = .ok q ∧ a.Quartered q) ∧ (q.join = .ok a ∧ a.toList = q.joinedList 1) ∧
      wide.quadrants = .error (.notSquare 1 2) ∧
      (single 5).quadrants = .error (.invalidDimension 1 1) ∧
      Blocks.join ⟨single 1, single 2, wide, a⟩ = .error (.shapeMismatch ⟨1, 1⟩ ⟨1, 2⟩) := by
  intro a single wide q
  have hquadrants : a.quadrants = .ok q := by decide +kernel
  have hjoined : q.join = .ok a := by decide +kernel
  obtain ⟨hsplit, hjoin⟩ := quadrants_and_join ℕ
  refine ⟨?_, ?_, (hsplit wide).1 (by decide), (hsplit (single 5)).2.1 rfl (by decide),
    (hjoin ⟨single 1, single 2, wide, a⟩).2 [single 1, single 2] wide [a] rfl (by simp; decide)
      (by decide)⟩
  · obtain ⟨q', hq', hquartered, -⟩ := (hsplit a).2.2 rfl (by decide)
    obtain rfl : q = q' := Except.ok.inj (hquadrants.symm.trans hq')
    exact ⟨hq', hquartered⟩
  · obtain ⟨a', ha', -, hlist, -⟩ := (hjoin q).1 1 (by decide)
    obtain rfl : a = a' := Except.ok.inj (hjoined.symm.trans ha')
    exact ⟨ha', hlist⟩

end DenseMatrix

end MatrixReckoner
