import MatrixReckoner.Grid.Basic

/-!
Grids taken apart and put together: transposes, minors and quadrants.

* `Grid.transpose`, with `Grid.entry_transpose` and `Grid.transpose_transpose`;
* `Grid.skip`, `Grid.minor`: what is left without one row and one column;
* `Quadrants`, `Grid.quadrants`, `Quadrants.join`: the four quarters of a square grid of even order;
* `Grid.join_quadrants`, `Grid.quadrants_join`: splitting and joining are inverse.
-/

namespace MatrixReckoner

variable {α : Type}

namespace Grid

variable {m n h : Nat}

/-! ### Transposes -/

/-- The grid with rows and columns exchanged. -/
def transpose (g : Grid α m n) : Grid α n m :=
  ofFn fun j i => g.entry i j

@[simp] theorem entry_transpose (g : Grid α m n) (j : Fin n) (i : Fin m) :
    g.transpose.entry j i = g.entry i j :=
  entry_ofFn _ j i

@[simp] theorem transpose_transpose (g : Grid α m n) : g.transpose.transpose = g :=
  ext fun i j => by simp

/-! ### Minors -/

/-- The position `i` of a list from which position `p` was removed, as a position before the
removal. -/
def skip (p : Fin (n + 1)) (i : Fin n) : Fin (n + 1) :=
  if i.val < p.val then i.castSucc else i.succ

theorem val_skip (p : Fin (n + 1)) (i : Fin n) :
    (skip p i).val = if i.val < p.val then i.val else i.val + 1 := by
  unfold skip
  split <;> rfl

/-- The grid without row `p` and column `q`. -/
def minor (g : Grid α (m + 1) (n + 1)) (p : Fin (m + 1)) (q : Fin (n + 1)) : Grid α m n :=
  ofFn fun i j => g.entry (skip p i) (skip q j)

@[simp] theorem entry_minor (g : Grid α (m + 1) (n + 1)) (p : Fin (m + 1)) (q : Fin (n + 1))
    (i : Fin m) (j : Fin n) : (g.minor p q).entry i j = g.entry (skip p i) (skip q j) :=
  entry_ofFn _ i j

theorem transpose_minor (g : Grid α (m + 1) (n + 1)) (p : Fin (m + 1)) (q : Fin (n + 1)) :
    (g.minor p q).transpose = g.transpose.minor q p :=
  ext fun j i => by simp

end Grid

/-! ### Quadrants -/

/-- Four square grids of one order, the quarters of a grid of twice that order. -/
structure Quadrants (α : Type) (h : Nat) where
  topLeft : Grid α h h
  topRight : Grid α h h
  bottomLeft : Grid α h h
  bottomRight : Grid α h h
  deriving DecidableEq

namespace Quadrants

variable {h : Nat}

/-- The grid that the four quarters make up. -/
def join (q : Quadrants α h) : Grid α (h + h) (h + h) :=
  .ofFn fun i j =>
    Fin.addCases
      (fun i => Fin.addCases (q.topLeft.entry i) (q.topRight.entry i) j)
      (fun i => Fin.addCases (q.bottomLeft.entry i) (q.bottomRight.entry i) j) i

end Quadrants

namespace Grid

variable {h : Nat}

/-- The four quarters of a square grid of even order. -/
def quadrants (g : Grid α (h + h) (h + h)) : Quadrants α h where
  topLeft := ofFn fun i j => g.entry (i.castAdd h) (j.castAdd h)
  topRight := ofFn fun i j => g.entry (i.castAdd h) (j.natAdd h)
  bottomLeft := ofFn fun i j => g.entry (i.natAdd h) (j.castAdd h)
  bottomRight := ofFn fun i j => g.entry (i.natAdd h) (j.natAdd h)

theorem quadrants_join (q : Quadrants α h) : q.join.quadrants = q := by
  cases q
  simp only [quadrants, Quadrants.join, entry_ofFn, Fin.addCases_left, Fin.addCases_right,
    ofFn_entry]

theorem join_quadrants (g : Grid α (h + h) (h + h)) :
    g.quadrants.join = g := by
  ext i j
  refine Fin.addCases (fun i => ?_) (fun i => ?_) i <;>
    refine Fin.addCases (fun j => ?_) (fun j => ?_) j <;>
    simp only [quadrants, Quadrants.join, entry_ofFn, Fin.addCases_left, Fin.addCases_right]

end Grid

end MatrixReckoner
