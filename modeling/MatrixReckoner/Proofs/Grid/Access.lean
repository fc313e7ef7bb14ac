import MatrixReckoner.Proofs.Grid.RowViews
import MatrixReckoner.Proofs.Session.WellFormed

/-!
Entries by their positions: a matrix is read and written as a grid, although all its entries stand
in one list.

* `DenseMatrix.Within`, `DenseMatrix.entryAt`, `DenseMatrix.putEntry`: positions inside a matrix,
  the entries at them, and the matrix with another one of them; `DenseMatrix.place_inj` says that
  different positions have different places.
* `Access`, `Access.read`, `Access.write`: the two ways to an entry, which differ in what becomes of
  a position outside the matrix; `Access.answer_reading` and `Access.answer_writing` say that they
  are the calls of a session.
* `Access.readPlace`, `Access.writePlace`: the same on the row-major list, by a place computed from
  the position; `Access.read_eq_readPlace` and `Access.toList_write` say that nothing else happens.
* `Access.write_comm`: writes at different positions can be exchanged.
* `DenseMatrix.ShowsEntry`, `DenseMatrix.showsEntry_iff`: all views of an entry show the same one,
  also behind a write (`DenseMatrix.showsEntry_putEntry`, `DenseMatrix.showsEntry_putEntry_iff`).
* `DenseMatrix.AccessedAsGrid`, `DenseMatrix.accessed_as_grid`: all this together.
-/

namespace MatrixReckoner

variable {α : Type}

/-! ### Positions -/

namespace DenseMatrix

variable {a : DenseMatrix α} {r c r' c' : ℕ} {x y : α}

/-- The position lies inside the matrix. -/
def Within (a : DenseMatrix α) (r c : ℕ) : Prop :=
  r < a.rows ∧ c < a.cols

/-- The entry at a position inside the matrix. -/
def entryAt (a : DenseMatrix α) (h : a.Within r c) : α :=
  a.cells.entry ⟨r, h.1⟩ ⟨c, h.2⟩

/-- The matrix with another entry at a position inside it. -/
def putEntry (a : DenseMatrix α) (h : a.Within r c) (x : α) : DenseMatrix α :=
  { a with cells := a.cells.set ⟨r, h.1⟩ ⟨c, h.2⟩ x }

lemma get_of_within (h : a.Within r c) : a.get r c = .ok (a.entryAt h) :=
  dif_pos h

lemma get_of_not_within (h : ¬ a.Within r c) :
    a.get r c = .error (.indexOutOfRange r c a.rows a.cols) :=
  dif_neg h

lemma set_of_within (h : a.Within r c) : a.set r c x = .ok (a.putEntry h x) :=
  dif_pos h

lemma set_of_not_within (h : ¬ a.Within r c) :
    a.set r c x = .error (.indexOutOfRange r c a.rows a.cols) :=
  dif_neg h

/-- Different positions have different places in the row-major list. -/
lemma place_inj (h : a.Within r c) (h' : a.Within r' c') :
    r * a.cols + c = r' * a.cols + c' ↔ r = r' ∧ c = c' := by
  have hplace :
      Grid.place (⟨r, h.1⟩ : Fin a.rows) ⟨c, h.2⟩ = Grid.place ⟨r', h'.1⟩ ⟨c', h'.2⟩ ↔ _ :=
    Grid.place_eq_iff
  simpa [Fin.ext_iff, Grid.place] using hplace

lemma entryAt_putEntry (h : a.Within r c) (h' : a.Within r' c') :
    (a.putEntry h x).entryAt h' = if r' = r ∧ c' = c then x else a.entryAt h' := by
  refine (a.cells.entry_set ⟨r, h.1⟩ ⟨c, h.2⟩ x ⟨r', h'.1⟩ ⟨c', h'.2⟩).trans ?_
  simp only [Fin.mk.injEq, eq_comm]
  rfl

lemma putEntry_comm (h : a.Within r c) (h' : a.Within r' c') (hne : (r, c) ≠ (r', c')) :
    (a.putEntry h x).putEntry h' y = (a.putEntry h' y).putEntry h x := by
  have hcells : (a.cells.set ⟨r, h.1⟩ ⟨c, h.2⟩ x).set ⟨r', h'.1⟩ ⟨c', h'.2⟩ y =
      (a.cells.set ⟨r', h'.1⟩ ⟨c', h'.2⟩ y).set ⟨r, h.1⟩ ⟨c, h.2⟩ x := by
    ext i j
    simp only [Grid.entry_set, Fin.ext_iff]
    by_cases hfirst : r = i ∧ c = j
    · have hsecond : ¬ (r' = i ∧ c' = j) := by
        rintro ⟨hr, hc⟩
        exact hne (by rw [hfirst.1, hfirst.2, hr, hc])
      rw [if_neg hsecond, if_pos hfirst, if_pos hfirst]
    · rw [if_neg hfirst, if_neg hfirst]
  exact congrArg (DenseMatrix.mk a.rows a.cols) hcells

end DenseMatrix

/-! ### Two ways to an entry -/

/-- An entry is accessed by its position: with a check, where a position outside the matrix is
refused, or by an index, where such a position ends the operation. -/
inductive Access where
  | checked
  | indexed

namespace Access

/-- What becomes of a position outside a matrix. -/
def refusal (access : Access) (r c rows cols : ℕ) : Failure :=
  match access with
  | checked => .refused (.indexOutOfRange r c rows cols)
  | indexed => .aborted (.position r c rows cols)

/-- The entry at a position. -/
def read (access : Access) (a : DenseMatrix α) (r c : ℕ) : Except Failure α :=
  (a.get r c).mapError fun _ => access.refusal r c a.rows a.cols

/-- The matrix with another entry at a position. -/
def write (access : Access) (a : DenseMatrix α) (r c : ℕ) (x : α) :
    Except Failure (DenseMatrix α) :=
  (a.set r c x).mapError fun _ => access.refusal r c a.rows a.cols

/-- The call that reads an entry. -/
def reading (access : Access) (source : Source α) (r c : ℕ) : Call α :=
  match access with
  | checked => .get source r c
  | indexed => .index source r c

/-- The call that writes an entry. -/
def writing (access : Access) (source : Source α) (r c : ℕ) (x : α) : Call α :=
  match access with
  | checked => .set source r c x
  | indexed => .assign source r c x

variable {access access' : Access} {a b : DenseMatrix α} {r c r' c' : ℕ} {x y : α}

lemma read_of_within (h : a.Within r c) : access.read a r c = .ok (a.entryAt h) := by
  rw [read, a.get_of_within h]
  rfl

lemma read_of_not_within (h : ¬ a.Within r c) :
    access.read a r c = .error (access.refusal r c a.rows a.cols) := by
  rw [read, a.get_of_not_within h]
  rfl

lemma write_of_within (h : a.Within r c) : access.write a r c x = .ok (a.putEntry h x) := by
  rw [write, a.set_of_within h]
  rfl

lemma write_of_not_within (h : ¬ a.Within r c) :
    access.write a r c x = .error (access.refusal r c a.rows a.cols) := by
  rw [write, a.set_of_not_within h]
  rfl

lemma write_eq_ok_iff : access.write a r c x = .ok b ↔ ∃ h : a.Within r c, a.putEntry h x = b := by
  by_cases h : a.Within r c
  · simp [write_of_within h, h]
  · simp [write_of_not_within h, h]

lemma read_eq_error_iff {failure : Failure} :
    access.read a r c = .error failure ↔
      ¬ a.Within r c ∧ access.refusal r c a.rows a.cols = failure := by
  by_cases h : a.Within r c
  · simp [read_of_within h, h]
  · simp [read_of_not_within h, h]

lemma write_eq_error_iff {failure : Failure} :
    access.write a r c x = .error failure ↔
      ¬ a.Within r c ∧ access.refusal r c a.rows a.cols = failure := by
  by_cases h : a.Within r c
  · simp [write_of_within h, h]
  · simp [write_of_not_within h, h]

/-! ### Calls -/

section Calls

variable [Element α] {s : Store α} {source : Source α}

lemma answer_reading (ha : s.matrix source = .ok a) :
    (access.reading source r c).answer s = Answer.element <$> access.read a r c := by
  have hmatrix : s.matrix source = pure a := ha
  by_cases h : a.Within r c
  · have hget := a.get_of_within h
    cases access <;> simp only [reading, Call.answer, hmatrix, pure_bind, read, hget] <;> rfl
  · have hget := a.get_of_not_within h
    cases access <;> simp only [reading, Call.answer, hmatrix, pure_bind, read, hget] <;> rfl

lemma answer_writing (ha : s.matrix source = .ok a) :
    (access.writing source r c x).answer s = Answer.matrix <$> access.write a r c x := by
  have hmatrix : s.matrix source = pure a := ha
  by_cases h : a.Within r c
  · have hset := a.set_of_within h (x := x)
    cases access <;> simp only [writing, Call.answer, hmatrix, pure_bind, write, hset] <;> rfl
  · have hset := a.set_of_not_within h (x := x)
    cases access <;> simp only [writing, Call.answer, hmatrix, pure_bind, write, hset] <;> rfl

end Calls

/-! ### The row-major list -/

section Places

/-- The place of a position in the row-major list of a matrix. -/
def locate (access : Access) (rows cols r c : ℕ) : Except Failure ℕ :=
  if r < rows ∧ c < cols then .ok (r * cols + c) else .error (access.refusal r c rows cols)

/-- The entry of a row-major list at the place of a position, if the list has this place. -/
def readPlace (access : Access) (rows cols : ℕ) (data : List α) (r c : ℕ) : Except Failure α := do
  let place ← access.locate rows cols r c
  match data[place]? with
  | some x => return x
  | none => throw (.aborted (.place data.length place))

/-- The row-major list with another entry at the place of a position, if the list has this place. -/
def writePlace (access : Access) (rows cols : ℕ) (data : List α) (r c : ℕ) (x : α) :
    Except Failure (List α) := do
  let place ← access.locate rows cols r c
  if place < data.length then
    return data.set place x
  else
    throw (.aborted (.place data.length place))

lemma locate_of_within (h : a.Within r c) :
    access.locate a.rows a.cols r c = pure (r * a.cols + c) :=
  if_pos h

lemma locate_of_not_within (h : ¬ a.Within r c) :
    access.locate a.rows a.cols r c = .error (access.refusal r c a.rows a.cols) :=
  if_neg h

/-- Reading an entry is reading the row-major list at its place. -/
lemma read_eq_readPlace : access.read a r c = access.readPlace a.rows a.cols a.toList r c := by
  by_cases h : a.Within r c
  · have hentry : a.toList[r * a.cols + c]? = some (a.entryAt h) :=
      a.cells.getElem?_toList ⟨r, h.1⟩ ⟨c, h.2⟩
    rw [read_of_within h, readPlace, locate_of_within h, pure_bind, hentry]
    rfl
  · rw [read_of_not_within h, readPlace, locate_of_not_within h]
    rfl

/-- Writing an entry is writing the row-major list at its place. -/
lemma toList_write :
    DenseMatrix.toList <$> access.write a r c x =
      access.writePlace a.rows a.cols a.toList r c x := by
  by_cases h : a.Within r c
  · have hplace : r * a.cols + c < a.toList.length :=
      lt_of_lt_of_eq (Grid.place_lt ⟨r, h.1⟩ ⟨c, h.2⟩) a.cells.length_toList.symm
    have hput : (a.putEntry h x).toList = a.toList.set (r * a.cols + c) x :=
      a.cells.toList_set ⟨r, h.1⟩ ⟨c, h.2⟩ x
    rw [write_of_within h, writePlace, locate_of_within h, pure_bind, if_pos hplace, ← hput]
    rfl
  · rw [write_of_not_within h, writePlace, locate_of_not_within h]
    rfl

end Places

/-! ### Writes one after another -/

/-- Two writes at different positions can be exchanged if one of these lies inside the matrix. -/
lemma write_comm (h : a.Within r c) (hne : (r, c) ≠ (r', c')) :
    (access.write a r c x >>= fun b => access'.write b r' c' y) =
      (access'.write a r' c' y >>= fun b => access.write b r c x) := by
  have hfirst (b : DenseMatrix α) (hb : b.Within r c) :
      access.write b r c x = pure (b.putEntry hb x) := write_of_within hb
  by_cases h' : a.Within r' c'
  · have hsecond (b : DenseMatrix α) (hb : b.Within r' c') :
        access'.write b r' c' y = pure (b.putEntry hb y) := write_of_within hb
    rw [hfirst a h, hsecond a h', pure_bind, pure_bind, hsecond (a.putEntry h x) h',
      hfirst (a.putEntry h' y) h, DenseMatrix.putEntry_comm h h' hne]
  · rw [hfirst a h, pure_bind, write_of_not_within h']
    exact write_of_not_within h'

end Access

namespace DenseMatrix

/-! ### Views of an entry -/

/-- All views of the entry at a position show the same one. -/
structure ShowsEntry (a : DenseMatrix α) (r c : ℕ) (x : α) : Prop where
  /-- It is read at its position. -/
  read : ∀ access : Access, access.read a r c = .ok x
  /-- It stands in its column of its row. -/
  row : (a.row? r).bind (·[c]?) = some x
  /-- So it does if the row-major list is cut into rows. -/
  chunk : ((chunks a.cols a.toList)[r]?).bind (·[c]?) = some x
  /-- It stands at its place in the row-major list. -/
  place : a.toList[r * a.cols + c]? = some x

variable {a : DenseMatrix α} {r c r' c' : ℕ} {x y : α}

/-- The single rows are the pieces of the row-major list. -/
lemma row?_eq_chunk (ha : a.WellFormed) (r : ℕ) : a.row? r = (chunks a.cols a.toList)[r]? := by
  have hrows := showsRows_toRows ha.cols_pos
  rw [hrows.row?, hrows.chunks]

lemma row?_bind_of_within (h : a.Within r c) :
    (a.row? r).bind (·[c]?) = some (a.entryAt h) := by
  rw [row?, dif_pos h.1, Option.bind_some, a.cells.toList_row, List.getElem?_ofFn, dif_pos h.2]
  rfl

/-- Outside of the matrix no row has an entry, in particular none behind its own end. -/
lemma row?_bind_of_not_within (h : ¬ a.Within r c) : (a.row? r).bind (·[c]?) = none := by
  rw [row?]
  split
  · next hr =>
    have hc : ¬ c < a.cols := fun hc => h ⟨hr, hc⟩
    rw [Option.bind_some, a.cells.toList_row, List.getElem?_ofFn, dif_neg hc]
  · rfl

/-- Every view of an entry shows what the position has. -/
lemma showsEntry_iff (ha : a.WellFormed) :
    a.ShowsEntry r c x ↔ ∃ h : a.Within r c, a.entryAt h = x := by
  constructor
  · intro h
    by_cases hin : a.Within r c
    · exact ⟨hin, Except.ok.inj ((Access.read_of_within hin).symm.trans (h.read .checked))⟩
    · cases (Access.read_of_not_within hin).symm.trans (h.read .checked)
  · rintro ⟨hin, rfl⟩
    exact ⟨fun _ => Access.read_of_within hin, row?_bind_of_within hin,
      row?_eq_chunk ha r ▸ row?_bind_of_within hin,
      a.cells.getElem?_toList ⟨r, hin.1⟩ ⟨c, hin.2⟩⟩

/-- A written matrix shows what was written. -/
lemma showsEntry_putEntry (ha : a.WellFormed) (h : a.Within r c) :
    (a.putEntry h x).ShowsEntry r c x := by
  have hwell : (a.putEntry h x).WellFormed := ha.of_shape rfl
  refine (showsEntry_iff hwell).mpr ⟨h, ?_⟩
  rw [entryAt_putEntry, if_pos ⟨rfl, rfl⟩]

/-- At any other position it shows what was there before. -/
lemma showsEntry_putEntry_iff (ha : a.WellFormed) (h : a.Within r c) (hne : (r', c') ≠ (r, c)) :
    (a.putEntry h x).ShowsEntry r' c' y ↔ a.ShowsEntry r' c' y := by
  have hwell : (a.putEntry h x).WellFormed := ha.of_shape rfl
  have hother : ¬ (r' = r ∧ c' = c) := fun ⟨hr, hc⟩ => hne (by rw [hr, hc])
  rw [showsEntry_iff hwell, showsEntry_iff ha]
  refine exists_congr fun h' => ?_
  rw [entryAt_putEntry h h', if_neg hother]

/-! ### The whole grid -/

/-- A matrix is accessed as a grid of its shape, and through its row-major list all the same. -/
structure AccessedAsGrid (a : DenseMatrix α) : Prop where
  /-- Every position inside the matrix has an entry. -/
  inside : ∀ r c, a.Within r c → ∃ x, a.ShowsEntry r c x
  /-- No position outside of it has one in any row. -/
  outside : ∀ r c, ¬ a.Within r c →
    (a.row? r).bind (·[c]?) = none ∧ ((chunks a.cols a.toList)[r]?).bind (·[c]?) = none
  /-- Reading fails at these positions only, with a check as well as by an index. -/
  read_fails : ∀ (access : Access) (r c : ℕ) (failure : Failure),
    access.read a r c = .error failure ↔
      (a.rows ≤ r ∨ a.cols ≤ c) ∧ access.refusal r c a.rows a.cols = failure
  /-- So does writing. -/
  write_fails : ∀ (access : Access) (r c : ℕ) (x : α) (failure : Failure),
    access.write a r c x = .error failure ↔
      (a.rows ≤ r ∨ a.cols ≤ c) ∧ access.refusal r c a.rows a.cols = failure
  /-- A written matrix shows what was written, and what was there at all other positions. -/
  written : ∀ (access : Access) (r c : ℕ) (x : α) (b : DenseMatrix α),
    access.write a r c x = .ok b → b.WellFormed ∧ b.shape = a.shape ∧ b.ShowsEntry r c x ∧
      ∀ r' c' y, (r', c') ≠ (r, c) → (b.ShowsEntry r' c' y ↔ a.ShowsEntry r' c' y)
  /-- Writes at different positions, of which one lies inside the matrix, can be exchanged. -/
  exchange : ∀ (access access' : Access) (r c r' c' : ℕ) (x y : α),
    a.Within r c ∨ a.Within r' c' → (r, c) ≠ (r', c') →
      (access.write a r c x >>= fun b => access'.write b r' c' y) =
        (access'.write a r' c' y >>= fun b => access.write b r c x)
  /-- Different positions have different places, and none is behind the row-major list. -/
  places : ∀ r c, a.Within r c → r * a.cols + c < a.toList.length ∧
    ∀ r' c', a.Within r' c' → (r * a.cols + c = r' * a.cols + c' ↔ r = r' ∧ c = c')
  /-- Reading and writing at a position do so at its place. -/
  flat : ∀ (access : Access) (r c : ℕ),
    access.read a r c = access.readPlace a.rows a.cols a.toList r c ∧
      ∀ x, toList <$> access.write a r c x = access.writePlace a.rows a.cols a.toList r c x

lemma not_within_iff : ¬ a.Within r c ↔ a.rows ≤ r ∨ a.cols ≤ c := by
  rw [Within]
  omega

/-- **A matrix is a grid.**  At every position inside a well-formed matrix, checked access, access
by an index, the rows and the row-major list have the same entry; at every other position no access
has one, whether checked or not, for reading or for writing.  A write changes the entry at its
position and no other, and two writes at different positions can be exchanged.  The calls of a
session access the matrices they are made on in this way. -/
theorem accessed_as_grid {a : DenseMatrix α} (ha : a.WellFormed) :
    a.AccessedAsGrid ∧
      ∀ [Element α] (s : Store α) (source : Source α), s.matrix source = .ok a →
        ∀ (access : Access) (r c : ℕ),
          (access.reading source r c).answer s = Answer.element <$> access.read a r c ∧
          ∀ x, (access.writing source r c x).answer s = Answer.matrix <$> access.write a r c x := by
  refine ⟨?_, fun s source hs access r c =>
    ⟨Access.answer_reading hs, fun x => Access.answer_writing hs⟩⟩
  refine ⟨?inside, ?outside, ?read_fails, ?write_fails, ?written, ?exchange, ?places, ?flat⟩
  case inside => exact fun r c h => ⟨a.entryAt h, (showsEntry_iff ha).mpr ⟨h, rfl⟩⟩
  case outside =>
    exact fun r c h => ⟨row?_bind_of_not_within h, row?_eq_chunk ha r ▸ row?_bind_of_not_within h⟩
  case read_fails =>
    intro access r c failure
    rw [← not_within_iff]
    exact Access.read_eq_error_iff
  case write_fails =>
    intro access r c x failure
    rw [← not_within_iff]
    exact Access.write_eq_error_iff
  case written =>
    intro access r c x b hb
    obtain ⟨h, rfl⟩ := Access.write_eq_ok_iff.mp hb
    exact ⟨ha.of_shape rfl, rfl, showsEntry_putEntry ha h,
      fun r' c' y hne => showsEntry_putEntry_iff ha h hne⟩
  case exchange =>
    rintro access access' r c r' c' x y (h | h') hne
    · exact Access.write_comm h hne
    · exact (Access.write_comm h' hne.symm).symm
  case places =>
    intro r c h
    have hplace : r * a.cols + c < a.rows * a.cols := Grid.place_lt ⟨r, h.1⟩ ⟨c, h.2⟩
    exact ⟨hplace.trans_eq ha.length_toList.symm, fun r' c' h' => place_inj h h'⟩
  case flat => exact fun access r c => ⟨Access.read_eq_readPlace, fun x => Access.toList_write⟩

/-- In a matrix of two rows and columns, the position behind the end of the first row is refused,
and aborts by an index, although its place is that of an entry of the second row. -/
theorem accessed_as_grid_of_two_rows :
    let x : BoundedInt .w32 := .zero
    let y : BoundedInt .w32 := .one
    let a : DenseMatrix (BoundedInt .w32) := ⟨2, 2, .ofVector #v[x, x, y, x]⟩
    let s : Store (BoundedInt .w32) := Store.empty.put "A" a
    a.WellFormed ∧ s.matrix (.named "A") = .ok a ∧
      Access.checked.read a 0 2 = .error (.refused (.indexOutOfRange 0 2 2 2)) ∧
      (Call.index (.named "A") 0 2).answer s = .error (.aborted (.position 0 2 2 2)) ∧
      a.toList[0 * a.cols + 2]? = some y ∧ a.ShowsEntry 1 0 y := by
  intro x y a s
  have hwell : a.WellFormed := wellFormed_of_pos (by decide) (by decide)
  obtain ⟨hgrid, hcalls⟩ := accessed_as_grid hwell
  have houtside : ∀ access : Access, access.read a 0 2 = .error (access.refusal 0 2 2 2) :=
    fun access => (hgrid.read_fails access 0 2 _).mpr ⟨.inr le_rfl, rfl⟩
  have hcall := (hcalls s (.named "A") rfl .indexed 0 2).1
  rw [houtside] at hcall
  have hentry : a.ShowsEntry 1 0 y := (showsEntry_iff hwell).mpr ⟨⟨by decide, by decide⟩, rfl⟩
  exact ⟨hwell, rfl, houtside .checked, hcall, hentry.place, hentry⟩

end DenseMatrix

end MatrixReckoner
