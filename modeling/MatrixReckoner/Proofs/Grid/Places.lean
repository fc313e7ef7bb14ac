import Mathlib
import MatrixReckoner.Proofs.Arithmetic.Splitting

/-!
Row-major stores of grids, and loops over them.

* `Grid.flatMap_finRange`, `Grid.toList_replicate`: a grid is listed row after row.
* `Grid.place`, `Grid.store`: the place that a row and a column give, and the entries by their
  places; `Grid.place_eq_iff` says that different entries have different places.
* `Grid.getElem?_toList`: an entry stands at its place in the list.
* `Grid.put`, `Grid.rowsOf_put`, `Grid.toList_set`: a replaced entry is replaced at its place, and
  nowhere else.
* `foldlM_found`: a loop that puts something behind what it has found, in every pass.
* `Grid.foldlM_hom`: two loops whose states stay related by a function.
* `Grid.foldlM_put_same`, `Grid.foldlM_put_each`: loops that change one entry of a list again and
  again, and loops that change every entry once.
-/

namespace MatrixReckoner

/-- A loop that puts something behind what it has found, in every pass. -/
lemma foldlM_found {M : Type → Type} [Monad M] [LawfulMonad M] {α β : Type} {l : List β}
    {step : List α → β → M (List α)} {piece : β → List α}
    (h : ∀ b ∈ l, ∀ found, step found b = pure (found ++ piece b)) (found : List α) :
    l.foldlM step found = pure (found ++ l.flatMap piece) := by
  induction l generalizing found with
  | nil => simp
  | cons b l ih =>
      have hrest := ih fun b' hb' => h b' (List.mem_cons_of_mem b hb')
      rw [List.foldlM_cons, h b List.mem_cons_self, pure_bind, hrest, List.flatMap_cons,
        List.append_assoc]

namespace Grid

variable {α : Type} {m n : ℕ}

/-! ### Lists of entries -/

/-- A grid is listed row after row. -/
lemma flatMap_finRange (g : Grid α m n) :
    ((List.finRange m).flatMap fun i => List.ofFn (g.entry i)) = g.toList := by
  rw [List.flatMap_def, ← List.ofFn_eq_map, ← toList_ofFn, ofFn_entry]

/-- A grid with one value everywhere lists that value. -/
lemma toList_replicate (x : α) : (replicate m n x).toList = List.replicate (m * n) x := by
  rw [replicate, toList_ofFn, List.ofFn_const, List.ofFn_const, List.flatten_replicate_replicate]

/-! ### Row-major stores -/

/-- The place of an entry in a row-major store. -/
def place (i : Fin m) (j : Fin n) : Fin (m * n) :=
  ⟨i.val * n + j.val, place_lt i j⟩

lemma place_eq_mkDivMod (i : Fin m) (j : Fin n) : place i j = i.mkDivMod j :=
  Fin.ext (congrArg (· + j.val) (Nat.mul_comm i.val n))

/-- Different entries have different places. -/
lemma place_eq_iff {i i' : Fin m} {j j' : Fin n} : place i j = place i' j' ↔ i = i' ∧ j = j' := by
  rw [place_eq_mkDivMod, place_eq_mkDivMod]
  refine ⟨fun h => ⟨?_, ?_⟩, ?_⟩
  · simpa using congrArg Fin.divNat h
  · simpa using congrArg Fin.modNat h
  · rintro ⟨rfl, rfl⟩
    rfl

/-- The entries of a grid, row after row. -/
def store (g : Grid α m n) : Vector α (m * n) :=
  Vector.ofFn fun p => g.entry p.divNat p.modNat

@[simp] lemma get_store (g : Grid α m n) (i : Fin m) (j : Fin n) :
    g.store.get (place i j) = g.entry i j := by
  refine (Vector.getElem_ofFn (place i j).isLt).trans ?_
  rw [Fin.eta, place_eq_mkDivMod, Fin.divNat_mkDivMod, Fin.modNat_mkDivMod]

lemma ofVector_store (g : Grid α m n) : ofVector g.store = g := by
  ext i j
  rw [entry_ofVector]
  exact get_store g i j

/-- The store is the list of the entries. -/
lemma toList_store (g : Grid α m n) : g.store.toList = g.toList := by
  rw [← toList_ofVector, ofVector_store]

/-- A grid is known from its list. -/
lemma toList_inj {g h : Grid α m n} : g.toList = h.toList ↔ g = h := by
  refine ⟨fun heq => ?_, congrArg toList⟩
  rw [← toList_store, ← toList_store] at heq
  rw [← ofVector_store g, Vector.toList_inj.mp heq, ofVector_store]

/-! ### Replaced entries -/

section Put

variable {β : Type}

/-- The list with one entry replaced. -/
def put (v : Vector β n) (i : Fin n) (b : β) : Vector β n :=
  v.set i b i.isLt

lemma get_put (v : Vector β n) (i : Fin n) (b : β) (j : Fin n) :
    (put v i b).get j = if i = j then b else v.get j := by
  refine (Vector.getElem_set i.isLt j.isLt).trans ?_
  simp only [Fin.ext_iff]
  rfl

lemma put_put (v : Vector β n) (i : Fin n) (b b' : β) : put (put v i b) i b' = put v i b' := by
  simp [put]

lemma put_get (v : Vector β n) (i : Fin n) : put v i (v.get i) = v :=
  Vector.set_getElem_self i.isLt

lemma put_push_castSucc (v : Vector β n) (x : β) (i : Fin n) (b : β) :
    put (v.push x) i.castSucc b = (put v i b).push x := by
  simp [put, Vector.set_push]

lemma put_push_last (v : Vector β n) (x b : β) : put (v.push x) (Fin.last n) b = v.push b := by
  simp [put, Vector.set_push]

lemma get_push_castSucc (v : Vector β n) (x : β) (i : Fin n) :
    (v.push x).get i.castSucc = v.get i :=
  Vector.getElem_push_lt i.isLt

lemma get_push_last (v : Vector β n) (x : β) : (v.push x).get (Fin.last n) = x :=
  Vector.getElem_push_eq

end Put

/-- The rows of a row-major store. -/
def rowsOf (c : Vector α (m * n)) : Vector (Vector α n) m :=
  (ofVector c).rows

lemma get_rowsOf (c : Vector α (m * n)) (i : Fin m) (j : Fin n) :
    ((rowsOf c).get i).get j = c.get (place i j) :=
  entry_ofVector c i j

/-- A change of the store at one place changes one row. -/
lemma rowsOf_put (c : Vector α (m * n)) (i : Fin m) (j : Fin n) (x : α) :
    rowsOf (put c (place i j) x) = put (rowsOf c) i (put ((rowsOf c).get i) j x) := by
  have hgrid : ofVector (put c (place i j) x) = (ofVector c).set i j x := by
    ext i' j'
    rw [entry_ofVector, entry_set, entry_ofVector]
    refine (get_put c (place i j) x (place i' j')).trans ?_
    simp only [place_eq_iff]
    rfl
  exact congrArg rows hgrid

/-- An entry stands at the place that its row and its column give. -/
lemma getElem?_toList (g : Grid α m n) (i : Fin m) (j : Fin n) :
    g.toList[i * n + j]? = some (g.entry i j) := by
  have hplace : (place i j : ℕ) < g.store.toList.length := by simp
  rw [← toList_store, ← get_store g i j]
  exact List.getElem?_eq_getElem hplace

/-- A replaced entry is replaced at its place, and nowhere else. -/
lemma toList_set (g : Grid α m n) (i : Fin m) (j : Fin n) (x : α) :
    (g.set i j x).toList = g.toList.set (i * n + j) x := by
  have hrows : (ofVector (put g.store (place i j) x)).rows = (g.set i j x).rows := by
    refine (rowsOf_put g.store i j x).trans ?_
    rw [rowsOf, ofVector_store]
    rfl
  have hset : g.set i j x = ofVector (put g.store (place i j) x) := congrArg Grid.mk hrows.symm
  rw [hset, toList_ofVector, ← toList_store]
  exact Vector.toList_set (place i j).isLt

/-! ### Loops -/

section Loops

variable {ε σ β γ : Type}

/-- Two loops whose states stay related by a function from pass to pass. -/
lemma foldlM_hom {f : σ → β} {g : σ → γ → Except ε σ} {h : β → γ → Except ε β}
    (hstep : ∀ s c, f <$> g s c = h (f s) c) (l : List γ) (s : σ) :
    f <$> l.foldlM g s = l.foldlM h (f s) := by
  induction l generalizing s with
  | nil => rfl
  | cons c l ih => simp only [List.foldlM_cons, map_bind, ih, ← hstep, bind_map_left]

/-- A loop each pass of which changes the same entry of a list is a loop over this entry. -/
lemma foldlM_put_same {i : Fin n} (g : β → γ → Except ε β) (l : List γ) (v : Vector β n) :
    l.foldlM (fun v c => put v i <$> g (v.get i) c) v = put v i <$> l.foldlM g (v.get i) := by
  induction l generalizing v with
  | nil => exact congrArg Except.ok (put_get v i).symm
  | cons c l ih =>
      have hget : ∀ b, (put v i b).get i = b := fun b => by rw [get_put, if_pos rfl]
      simp only [List.foldlM_cons, bind_map_left, ih, map_bind, hget]
      refine congrArg (g (v.get i) c >>= ·) (funext fun b => ?_)
      exact congrArg (· <$> l.foldlM g b) (funext (put_put v i b))

/-- A loop each pass of which changes another entry of a list. -/
lemma foldlM_put_each (f : Fin n → β → Except ε β) (v : Vector β n) :
    (List.finRange n).foldlM (fun v j => put v j <$> f j (v.get j)) v =
      Vector.ofFnM fun j => f j (v.get j) := by
  induction n with
  | zero =>
      rw [Vector.ofFnM_zero]
      exact congrArg Except.ok (Vector.ext fun j hj => absurd hj (Nat.not_lt_zero j))
  | succ n ih =>
      obtain ⟨w, x, rfl⟩ := v.exists_push
      -- all passes but the last leave the last entry alone
      have hinit : (List.finRange n).foldlM
          (fun v (j : Fin n) => put v j.castSucc <$> f j.castSucc (v.get j.castSucc)) (w.push x) =
            (fun w' : Vector β n => w'.push x) <$>
              Vector.ofFnM fun j : Fin n => f j.castSucc (w.get j) := by
        rw [← ih]
        refine (foldlM_hom (f := fun w' : Vector β n => w'.push x)
          (h := fun v (j : Fin n) => put v j.castSucc <$> f j.castSucc (v.get j.castSucc))
          (fun w' j => ?_) _ w).symm
        rw [Functor.map_map, get_push_castSucc]
        exact congrArg (· <$> f j.castSucc (w'.get j))
          (funext fun b => (put_push_castSucc w' x j b).symm)
      have hlast :
          (List.finRange (n + 1)).foldlM (fun v j => put v j <$> f j (v.get j)) (w.push x) =
            (Vector.ofFnM fun j : Fin n => f j.castSucc (w.get j)) >>= fun w' =>
              w'.push <$> f (Fin.last n) x := by
        rw [List.finRange_succ_last, List.foldlM_append, List.foldlM_map, hinit, bind_map_left]
        refine congrArg (Vector.ofFnM _ >>= ·) (funext fun w' => ?_)
        simp only [List.foldlM_cons, List.foldlM_nil, get_push_last, bind_pure]
        exact congrArg (· <$> f (Fin.last n) x) (funext (put_push_last w' x))
      rw [hlast, Vector.ofFnM_succ]
      simp only [get_push_castSucc, get_push_last, map_eq_pure_bind]

end Loops

end Grid

end MatrixReckoner
