import MatrixReckoner.Element.Basic

/-!
Rectangular tables whose two dimensions are part of their type, so that an operation on tables has
no shapes to check.  A grid is known by its entries: `Grid.ext` says so, and each operation comes
with the lemma that gives the entries of its result.

* `Grid`, `Grid.entry`, `Grid.ofFn`: a grid and its two views, as rows and as a function;
* `Grid.tabulate`: a grid whose entries are computed in row-major order and may fail;
* `Grid.tabulate_eq_ok_iff`: it succeeds with exactly the grid of the computed entries;
* `Grid.mapM`, `Grid.zipM`, `Grid.set`, `Grid.cast`: operations entry by entry;
* `Grid.toRows`, `Grid.toList`, `Grid.ofRows`, `Grid.ofVector`: grids and lists.
-/

namespace MatrixReckoner

variable {α β γ ε : Type}

/-! ### Vectors of computed entries -/

/-- A vector of computed entries is the computation of every entry. -/
theorem ofFnM_eq_ok_iff {n : Nat} {f : Fin n → Except ε α} {v : Vector α n} :
    Vector.ofFnM f = .ok v ↔ ∀ i, f i = .ok v[i] := by
  constructor
  · intro h
    induction n with
    | zero => exact fun i => i.elim0
    | succ n ih =>
      rw [Vector.ofFnM_succ] at h
      obtain ⟨init, computed, h⟩ := bind_eq_ok_iff.1 h
      obtain ⟨last, computedLast, h⟩ := bind_eq_ok_iff.1 h
      cases h
      intro i
      refine Fin.lastCases ?_ (fun j => ?_) i
      · simp [computedLast]
      · simpa using ih computed j
  · intro h
    have pointwise : f = fun i => pure v[i] := funext h
    rw [pointwise, Vector.ofFnM_pure]
    exact congrArg Except.ok (Vector.ext fun i hi => by simp)

/-- A table of `m` rows with `n` entries each. -/
structure Grid (α : Type) (m n : Nat) where
  /-- The rows from top to bottom. -/
  rows : Vector (Vector α n) m
  deriving DecidableEq

namespace Grid

variable {m n : Nat}

/-! ### Entries -/

/-- The entry in row `i` and column `j`. -/
def entry (g : Grid α m n) (i : Fin m) (j : Fin n) : α :=
  g.rows[i][j]

/-- The row at `i`. -/
def row (g : Grid α m n) (i : Fin m) : Vector α n :=
  g.rows[i]

/-- The grid with given entries. -/
def ofFn (f : Fin m → Fin n → α) : Grid α m n :=
  ⟨Vector.ofFn fun i => Vector.ofFn (f i)⟩

@[simp] theorem entry_ofFn (f : Fin m → Fin n → α) (i : Fin m) (j : Fin n) :
    (ofFn f).entry i j = f i j := by
  simp [ofFn, entry]

@[ext] theorem ext {g h : Grid α m n} (H : ∀ i j, g.entry i j = h.entry i j) : g = h := by
  cases g; cases h
  congr 1
  ext i hi j hj
  exact H ⟨i, hi⟩ ⟨j, hj⟩

@[simp] theorem ofFn_entry (g : Grid α m n) : ofFn g.entry = g :=
  ext fun i j => entry_ofFn g.entry i j

/-- The grid with the same entry everywhere. -/
def replicate (m n : Nat) (x : α) : Grid α m n :=
  ofFn fun _ _ => x

@[simp] theorem entry_replicate (x : α) (i : Fin m) (j : Fin n) :
    (replicate m n x).entry i j = x :=
  entry_ofFn _ i j

/-! ### Computed entries -/

/-- The grid whose entries are computed one by one, row after row; the first failure is the
answer. -/
def tabulate (f : Fin m → Fin n → Except ε α) : Except ε (Grid α m n) :=
  Grid.mk <$> Vector.ofFnM fun i => Vector.ofFnM (f i)

theorem tabulate_eq_ok_iff {f : Fin m → Fin n → Except ε α} {g : Grid α m n} :
    tabulate f = .ok g ↔ ∀ i j, f i j = .ok (g.entry i j) := by
  have rows : tabulate f = .ok g ↔ (Vector.ofFnM fun i => Vector.ofFnM (f i)) = .ok g.rows := by
    unfold tabulate
    cases Vector.ofFnM fun i => Vector.ofFnM (f i) with
    | error e => exact ⟨nofun, nofun⟩
    | ok v =>
      exact ⟨fun h => by cases h; rfl, fun h => by cases h; rfl⟩
  rw [rows, ofFnM_eq_ok_iff]
  exact forall_congr' fun i => ofFnM_eq_ok_iff

/-- The grid of computed images of the entries. -/
def mapM (f : α → Except ε β) (g : Grid α m n) : Except ε (Grid β m n) :=
  tabulate fun i j => f (g.entry i j)

/-- The grid of computed combinations of entries at the same position. -/
def zipM (f : α → β → Except ε γ) (g : Grid α m n) (h : Grid β m n) : Except ε (Grid γ m n) :=
  tabulate fun i j => f (g.entry i j) (h.entry i j)

theorem mapM_eq_ok_iff {f : α → Except ε β} {g : Grid α m n} {h : Grid β m n} :
    g.mapM f = .ok h ↔ ∀ i j, f (g.entry i j) = .ok (h.entry i j) :=
  tabulate_eq_ok_iff

theorem zipM_eq_ok_iff {f : α → β → Except ε γ} {g : Grid α m n} {h : Grid β m n}
    {k : Grid γ m n} :
    zipM f g h = .ok k ↔ ∀ i j, f (g.entry i j) (h.entry i j) = .ok (k.entry i j) :=
  tabulate_eq_ok_iff

/-! ### Stores -/

/-- The grid with the entry at one position replaced. -/
def set (g : Grid α m n) (i : Fin m) (j : Fin n) (x : α) : Grid α m n :=
  ⟨g.rows.set i (g.rows[i].set j x)⟩

theorem entry_set (g : Grid α m n) (i : Fin m) (j : Fin n) (x : α) (i' : Fin m) (j' : Fin n) :
    (g.set i j x).entry i' j' = if i = i' ∧ j = j' then x else g.entry i' j' := by
  simp only [set, entry, Fin.getElem_fin, Vector.getElem_set, Fin.ext_iff]
  by_cases hi : i.val = i'.val
  · by_cases hj : j.val = j'.val <;> simp [hi, hj]
  · simp [hi]

/-! ### Changes of the type's dimensions -/

/-- The same grid with equal dimensions written differently. -/
def cast {m' n' : Nat} (hm : m = m') (hn : n = n') (g : Grid α m n) : Grid α m' n' :=
  ⟨(g.rows.map (·.cast hn)).cast hm⟩

@[simp] theorem entry_cast {m' n' : Nat} (hm : m = m') (hn : n = n') (g : Grid α m n)
    (i : Fin m') (j : Fin n') :
    (g.cast hm hn).entry i j = g.entry (i.cast hm.symm) (j.cast hn.symm) := by
  simp [cast, entry]

@[simp] theorem cast_rfl (g : Grid α m n) : g.cast rfl rfl = g :=
  ext fun i j => by simp

/-! ### Rows and lists -/

/-- The rows as lists. -/
def toRows (g : Grid α m n) : List (List α) :=
  (g.rows.map Vector.toList).toList

/-- The entries row after row. -/
def toList (g : Grid α m n) : List α :=
  g.toRows.flatten

/-- The grid of rows that all have `n` entries. -/
def ofRows (rows : List (List α)) (h : ∀ r ∈ rows, r.length = n) : Grid α rows.length n :=
  ⟨⟨(rows.attach.map fun r => ⟨r.val.toArray, h r.val r.property⟩).toArray, by simp⟩⟩

/-- The place of row `i` and column `j` in a row-major list of `m` rows with `n` entries. -/
theorem place_lt (i : Fin m) (j : Fin n) : i.val * n + j.val < m * n := by
  have rowEnd : (i.val + 1) * n ≤ m * n := Nat.mul_le_mul_right n i.isLt
  rw [Nat.succ_mul] at rowEnd
  have := j.isLt
  omega

/-- The grid whose entries are listed row after row. -/
def ofVector (v : Vector α (m * n)) : Grid α m n :=
  ofFn fun i j => v.get ⟨i.val * n + j.val, place_lt i j⟩

@[simp] theorem entry_ofVector (v : Vector α (m * n)) (i : Fin m) (j : Fin n) :
    (ofVector v).entry i j = v.get ⟨i.val * n + j.val, place_lt i j⟩ :=
  entry_ofFn _ i j

end Grid

end MatrixReckoner
