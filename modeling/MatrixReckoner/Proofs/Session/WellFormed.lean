import MatrixReckoner.Session.Run
import MatrixReckoner.Proofs.Grid.Rows
import MatrixReckoner.Proofs.Session.Shape

/-!
Whatever calls are made, every matrix has rows, columns, and as many entries as these say.

* `DenseMatrix.WellFormed`, `Answer.WellFormed`, `Store.WellFormed`: the invariant, of a matrix, of
  the matrices of an answer, and of those that are kept.
* `Call.ensures_answer`, `RealCall.ensures_answer`: calls on matrices with the invariant answer
  matrices with the invariant.
* `Store.WellFormed.perform`, `Store.WellFormed.after`: steps keep the invariant.
* `Call.Writes`, `SoundSession`: the calls that replace an entry, and what holds in a session.
* `wellFormed_session`: the invariant in every session, and the effect of a write that fails.
-/

namespace MatrixReckoner

variable {α β κ : Type}

/-! ### Matrices -/

/-- A matrix has rows and columns, and as many entries as these say. -/
structure DenseMatrix.WellFormed (a : DenseMatrix α) : Prop where
  rows_pos : 1 ≤ a.rows
  cols_pos : 1 ≤ a.cols
  length_toList : a.toList.length = a.rows * a.cols

namespace DenseMatrix

variable {a b c : DenseMatrix α}

lemma wellFormed_of_pos (hrows : 1 ≤ a.rows) (hcols : 1 ≤ a.cols) : a.WellFormed :=
  ⟨hrows, hcols, a.cells.length_toList⟩

lemma wellFormed_of_fits {bytes : ℕ} (h : a.shape.Fits bytes) : a.WellFormed :=
  wellFormed_of_pos h.1 h.2.1

namespace WellFormed

lemma of_shape (h : a.WellFormed) (hb : b.shape = a.shape) : b.WellFormed := by
  obtain ⟨hrows, hcols⟩ := Shape.mk.inj hb
  exact wellFormed_of_pos (hrows ▸ h.rows_pos) (hcols ▸ h.cols_pos)

lemma transpose (h : a.WellFormed) : a.transpose.WellFormed :=
  wellFormed_of_pos h.cols_pos h.rows_pos

lemma of_shape_product (ha : a.WellFormed) (hb : b.WellFormed)
    (hc : c.shape = ⟨a.rows, b.cols⟩) : c.WellFormed := by
  obtain ⟨hrows, hcols⟩ := Shape.mk.inj hc
  exact wellFormed_of_pos (hrows ▸ ha.rows_pos) (hcols ▸ hb.cols_pos)

/-- A matrix with rows whose number is even has at least two, so half of them is not none. -/
lemma ensures_quadrants (h : a.WellFormed) :
    Ensures (fun q => ∀ b ∈ q.toList, b.WellFormed) a.quadrants := by
  refine (a.ensures_quadrants).mono fun q ⟨heven, hq⟩ b hb => ?_
  obtain ⟨hrows, hcols⟩ := Shape.mk.inj (hq b hb)
  have hpos := h.rows_pos
  exact wellFormed_of_pos (by omega) (by omega)

lemma ensures_join {q : Blocks α} (h : q.topLeft.WellFormed) : Ensures WellFormed q.join := by
  refine q.ensures_join.mono fun c hc => ?_
  obtain ⟨hrows, hcols⟩ := Shape.mk.inj hc
  have hpos := h.rows_pos
  exact wellFormed_of_pos (by omega) (by omega)

/-- An operator that goes ahead has the result of the operation. -/
lemma ensures_applyUnchecked [Element α] (ha : a.WellFormed) (hb : b.WellFormed)
    (op : Operator) : Ensures WellFormed (op.applyUnchecked a b) := by
  have happly : Ensures WellFormed (op.apply a b) := by
    cases op with
    | add => exact (ensures_zipM a b _).mono fun _ => ha.of_shape
    | sub => exact (ensures_zipM a b _).mono fun _ => ha.of_shape
    | mul => exact (ensures_multiply a b).mono fun _ => ha.of_shape_product hb
  intro c hc
  rw [Operator.applyUnchecked] at hc
  split at hc
  · next d hd =>
    cases hc
    exact happly _ hd
  · cases hc
  · cases hc

end WellFormed

end DenseMatrix

/-! ### Kept matrices and answers -/

/-- Every matrix that is kept is well-formed. -/
def Store.WellFormed (s : Store α) : Prop :=
  ∀ entry ∈ s.entries, entry.2.WellFormed

/-- Every matrix of an answer is well-formed. -/
def Answer.WellFormed (answer : Answer α) : Prop :=
  ∀ a ∈ answer.matrices, a.WellFormed

namespace Store

lemma wellFormed_empty : (empty : Store α).WellFormed :=
  nofun

variable {s : Store α}

lemma WellFormed.of_find? (h : s.WellFormed) {name : String} {a : DenseMatrix α}
    (ha : s.find? name = some a) : a.WellFormed := by
  obtain ⟨before, behind, hentries, -⟩ := List.lookup_eq_some_iff.mp ha
  exact h (name, a) (by rw [hentries]; simp)

lemma WellFormed.put (h : s.WellFormed) {a : DenseMatrix α} (ha : a.WellFormed) (name : String) :
    (s.put name a).WellFormed := by
  intro entry hentry
  rcases List.mem_cons.mp hentry with rfl | hentry
  · exact ha
  · exact h entry (List.mem_of_mem_filter hentry)

lemma WellFormed.putAll (h : s.WellFormed) (names : List String) {matrices : List (DenseMatrix α)}
    (hmatrices : ∀ a ∈ matrices, a.WellFormed) : (s.putAll names matrices).WellFormed := by
  have hpairs : ∀ pair ∈ names.zip matrices, pair.2.WellFormed := fun pair hpair =>
    hmatrices pair.2 (List.of_mem_zip hpair).2
  rw [Store.putAll]
  generalize names.zip matrices = pairs at hpairs
  induction pairs generalizing s with
  | nil => exact h
  | cons pair pairs ih =>
      rw [List.forall_mem_cons] at hpairs
      exact ih (h.put hpairs.1 pair.1) hpairs.2

end Store

/-! ### Calls -/

namespace Failure

variable {P : β → Prop}

lemma ensures_ofChecked {x : Except MatrixError β} (h : Ensures P x) :
    Ensures P (ofChecked x) := by
  intro b hb
  rw [ofChecked.eq_def] at hb
  split at hb
  · cases hb
    exact h _ rfl
  · cases hb
  · cases hb

lemma ensures_ofUnchecked {x : Except Abort β} (h : Ensures P x) : Ensures P (ofUnchecked x) :=
  fun b hb => h b (mapError_eq_ok_iff.mp hb)

end Failure

namespace Answer

lemma ensures_matrix {x : Except Failure (DenseMatrix α)} (h : Ensures DenseMatrix.WellFormed x) :
    Ensures Answer.WellFormed (do return .matrix (← x)) :=
  h.bind fun _ ha => .ok (List.forall_mem_singleton.mpr ha)

lemma ensures_of_matrices_eq_nil {x : Except Failure β} {f : β → Answer α}
    (h : ∀ b, (f b).matrices = []) : Ensures Answer.WellFormed (do return f (← x)) :=
  (Ensures.any x).bind fun b _ => .ok fun a ha => absurd ha (by simp [h b])

end Answer

section Element

variable [Element α] {s : Store α}

open DenseMatrix Failure

/-- An operand stands for a well-formed matrix, whether it is written out or kept. -/
lemma Store.WellFormed.ensures_matrix (h : s.WellFormed) (source : Source α) :
    Ensures DenseMatrix.WellFormed (s.matrix source) := by
  cases source with
  | rows rows =>
      exact ensures_ofChecked ((ensures_ofRows rows).mono fun _ ha => wellFormed_of_fits ha.2)
  | list rows cols data =>
      exact ensures_ofChecked
        ((ensures_ofList rows cols data).mono fun _ ha => wellFormed_of_fits ha.2)
  | named name =>
      rw [Store.matrix]
      split
      · next ha => exact .ok (h.of_find? ha)
      · exact .error _

variable {source source' : Source α}

/-- A call with one operand, of which the operation makes a well-formed matrix. -/
lemma Store.WellFormed.ensures_unary (hs : s.WellFormed)
    {f : DenseMatrix α → Except MatrixError (DenseMatrix α)}
    (hf : ∀ a, a.WellFormed → Ensures DenseMatrix.WellFormed (f a)) :
    Ensures Answer.WellFormed (do
      let a ← s.matrix source
      return .matrix (← ofChecked (f a))) :=
  (hs.ensures_matrix source).bind fun a ha =>
    Answer.ensures_matrix (ensures_ofChecked (hf a ha))

/-- A call with two operands, of which the operation makes a well-formed matrix. -/
lemma Store.WellFormed.ensures_binary (hs : s.WellFormed)
    {f : DenseMatrix α → DenseMatrix α → Except MatrixError (DenseMatrix α)}
    (hf : ∀ a b, a.WellFormed → b.WellFormed → Ensures DenseMatrix.WellFormed (f a b)) :
    Ensures Answer.WellFormed (do
      let a ← s.matrix source
      let b ← s.matrix source'
      return .matrix (← ofChecked (f a b))) :=
  (hs.ensures_matrix source).bind fun a ha => (hs.ensures_matrix source').bind fun b hb =>
    Answer.ensures_matrix (ensures_ofChecked (hf a b ha hb))

/-- Calls on well-formed matrices answer well-formed matrices. -/
lemma Call.ensures_answer (hs : s.WellFormed) (call : Call α) :
    Ensures Answer.WellFormed (call.answer s) := by
  have hkeeps : ∀ {a : DenseMatrix α} {x : Except MatrixError (DenseMatrix α)}, a.WellFormed →
      Ensures (·.shape = a.shape) x → Ensures DenseMatrix.WellFormed x :=
    fun ha hx => hx.mono fun _ => ha.of_shape
  cases call with
  -- constructors
  | value a => exact Answer.ensures_matrix (hs.ensures_matrix a)
  | zeros m n =>
      exact Answer.ensures_matrix (ensures_ofChecked
        ((ensures_full m n _).mono fun _ ha => wellFormed_of_fits ha.2))
  | full m n x =>
      exact Answer.ensures_matrix (ensures_ofChecked
        ((ensures_full m n x).mono fun _ ha => wellFormed_of_fits ha.2))
  | identity n =>
      exact Answer.ensures_matrix (ensures_ofChecked
        ((ensures_identity n).mono fun _ ha => wellFormed_of_fits ha.2))
  | standard =>
      have hdefault : (default : DenseMatrix α).WellFormed :=
        wellFormed_of_pos (Nat.succ_pos 2) (Nat.succ_pos 2)
      exact .ok (List.forall_mem_singleton.mpr hdefault)
  -- reading
  | describe a => exact Answer.ensures_of_matrices_eq_nil fun _ => rfl
  | row a r => exact Answer.ensures_of_matrices_eq_nil fun _ => rfl
  | rows a => exact Answer.ensures_of_matrices_eq_nil fun _ => rfl
  | entries a => exact Answer.ensures_of_matrices_eq_nil fun _ => rfl
  | get a i j =>
      exact (Ensures.any _).bind fun _ _ => Answer.ensures_of_matrices_eq_nil fun _ => rfl
  | index a i j =>
      refine (Ensures.any _).bind fun a _ => ?_
      split
      · exact .ok nofun
      · exact .error _
  -- writing
  | set a i j x => exact hs.ensures_unary fun a ha => hkeeps ha (ensures_set a i j x)
  | assign a i j x =>
      refine (hs.ensures_matrix a).bind fun a ha => ?_
      split
      · next b hb =>
        exact .ok (List.forall_mem_singleton.mpr (hkeeps ha (ensures_set a i j x) b hb))
      · exact .error _
  | increase a i j x => exact hs.ensures_unary fun a ha => hkeeps ha (ensures_update a i j _)
  | store a place x =>
      refine (hs.ensures_matrix a).bind fun a ha => ?_
      split
      · next b hb =>
        exact .ok (List.forall_mem_singleton.mpr (ha.of_shape (shape_of_store?_eq_some a b hb)))
      · exact .error _
  | apply a f => exact hs.ensures_unary fun a ha => hkeeps ha (ensures_mapM a f)
  -- entry by entry
  | map a f => exact hs.ensures_unary fun a ha => hkeeps ha (ensures_mapM a f)
  | zip a b f => exact hs.ensures_binary fun a b ha _ => hkeeps ha (ensures_zipM a b f)
  | add a b => exact hs.ensures_binary fun a b ha _ => hkeeps ha (ensures_zipM a b _)
  | sub a b => exact hs.ensures_binary fun a b ha _ => hkeeps ha (ensures_zipM a b _)
  | scale a x => exact hs.ensures_unary fun a ha => hkeeps ha (ensures_mapM a _)
  | neg a => exact hs.ensures_unary fun a ha => hkeeps ha (ensures_mapM a _)
  | operator op a b =>
      exact (hs.ensures_matrix a).bind fun a ha => (hs.ensures_matrix b).bind fun b hb =>
        Answer.ensures_matrix (ensures_ofUnchecked (ha.ensures_applyUnchecked hb op))
  | equal a b =>
      exact (Ensures.any _).bind fun _ _ => Answer.ensures_of_matrices_eq_nil fun _ => rfl
  -- linear algebra
  | multiply a b =>
      exact hs.ensures_binary fun a b ha hb =>
        (ensures_multiply a b).mono fun _ => ha.of_shape_product hb
  | product a b =>
      exact hs.ensures_binary fun a b ha hb =>
        (ensures_product a b).mono fun _ => ha.of_shape_product hb
  | strassen a b => exact hs.ensures_binary fun a b ha _ => hkeeps ha (ensures_strassen a b)
  | usesStrassen a b =>
      exact (Ensures.any _).bind fun _ _ => Answer.ensures_of_matrices_eq_nil fun _ => rfl
  | power a k => exact hs.ensures_unary fun a ha => hkeeps ha (ensures_power a k)
  | determinant a =>
      exact (Ensures.any _).bind fun _ _ => Answer.ensures_of_matrices_eq_nil fun _ => rfl
  | isRegular a =>
      exact (Ensures.any _).bind fun _ _ => Answer.ensures_of_matrices_eq_nil fun _ => rfl
  | adjugate a => exact hs.ensures_unary fun a ha => hkeeps ha (ensures_adjugate a)
  -- structure
  | transpose a =>
      exact (hs.ensures_matrix a).bind fun a ha => .ok (List.forall_mem_singleton.mpr ha.transpose)
  | submatrix a i j =>
      exact hs.ensures_unary fun a _ =>
        (ensures_submatrix a i j).mono fun _ hb => wellFormed_of_fits hb.2
  | quadrants a =>
      exact (hs.ensures_matrix a).bind fun a ha =>
        (ensures_ofChecked ha.ensures_quadrants).bind fun q hq => .ok hq
  | join topLeft topRight bottomLeft bottomRight =>
      exact (hs.ensures_matrix topLeft).bind fun topLeft h => (Ensures.any _).bind fun _ _ =>
        (Ensures.any _).bind fun _ _ => (Ensures.any _).bind fun _ _ =>
          Answer.ensures_matrix (ensures_ofChecked (WellFormed.ensures_join h))

end Element

lemma RealCall.ensures_answer [Analytic α] [Printable α] {s : Store α} (hs : s.WellFormed)
    (call : RealCall α) : Ensures Answer.WellFormed (call.answer s) := by
  cases call with
  | general call => exact call.ensures_answer hs
  | close a b tolerance =>
      exact (Ensures.any _).bind fun _ _ => (Ensures.any _).bind fun _ _ =>
        Answer.ensures_of_matrices_eq_nil fun _ => rfl
  | integerPower a k =>
      exact hs.ensures_unary fun a ha => (a.ensures_integerPower k).mono fun _ => ha.of_shape
  | inverse a => exact hs.ensures_unary fun a ha => a.ensures_inverse.mono fun _ => ha.of_shape
  | text a places => exact Answer.ensures_of_matrices_eq_nil fun _ => rfl

/-! ### Steps -/

namespace Store

section Calling

variable [Calling κ α] {s : Store α}

/-- The store behind steps. -/
def after (s : Store α) (steps : List (Step κ)) : Store α :=
  steps.foldl (fun s step => (s.perform step).1) s

/-- One step keeps the invariant, whether it fails or not. -/
lemma WellFormed.perform (hs : s.WellFormed) {step : Step κ}
    (hanswer : Ensures Answer.WellFormed (Calling.answer s step.call)) :
    (s.perform step).1.WellFormed ∧ Ensures Answer.WellFormed (s.perform step).2 := by
  rw [Store.perform]
  split
  · next answer h =>
    have hmatrices := hanswer answer h
    exact ⟨(hs.putAll _ hmatrices).putAll _ hmatrices, .ok hmatrices⟩
  · exact ⟨hs, .error _⟩

/-- All steps keep the invariant. -/
lemma WellFormed.after (hs : s.WellFormed)
    (hanswer : ∀ (s : Store α) (call : κ), s.WellFormed →
      Ensures Answer.WellFormed (Calling.answer s call)) (steps : List (Step κ)) :
    (s.after steps).WellFormed ∧ ∀ answer ∈ s.run steps, Ensures Answer.WellFormed answer := by
  induction steps generalizing s with
  | nil => exact ⟨hs, nofun⟩
  | cons step steps ih =>
      obtain ⟨hstore, hfirst⟩ := hs.perform (hanswer s step.call hs)
      obtain ⟨hafter, hrest⟩ := ih hstore
      exact ⟨hafter, List.forall_mem_cons.mpr ⟨hfirst, hrest⟩⟩

end Calling

end Store

/-! ### Writes -/

/-- The call replaces an entry of the matrix that is kept under a name. -/
inductive Call.Writes : Call α → String → Prop where
  | set {name : String} {row col : ℕ} {x : α} : Writes (.set (.named name) row col x) name
  | assign {name : String} {row col : ℕ} {x : α} : Writes (.assign (.named name) row col x) name
  | increase {name : String} {row col : ℕ} {x : α} : Writes (.increase (.named name) row col x) name
  | store {name : String} {place : ℕ} {x : α} : Writes (.store (.named name) place x) name

/-- The call replaces an entry of the matrix that is kept under a name. -/
def RealCall.Writes (call : RealCall α) (name : String) : Prop :=
  ∃ general : Call α, call = .general general ∧ general.Writes name

lemma Store.perform_of_answer_eq_error [Calling κ α] {s : Store α} {step : Step κ}
    {failure : Failure} (h : (s.perform step).2 = .error failure) : (s.perform step).1 = s := by
  rw [Store.perform] at h ⊢
  split
  · next hanswer =>
    rw [hanswer] at h
    cases h
  · rfl

/-! ### Sessions -/

/-- Behind the steps of a session every matrix is well-formed that is kept, that an operand stands
for, or that was answered, and a write that fails leaves the matrix as it was. -/
structure SoundSession [Element α] [Calling κ α] (writes : κ → String → Prop)
    (steps : List (Step κ)) : Prop where
  kept : (Store.empty.after steps).WellFormed
  operand : ∀ source : Source α,
    Ensures DenseMatrix.WellFormed ((Store.empty.after steps).matrix source)
  answered : ∀ answer ∈ Store.empty.run steps, Ensures Answer.WellFormed answer
  unchanged : ∀ (call : κ) (name : String) (names : List String) (failure : Failure),
    writes call name → ((Store.empty.after steps).perform ⟨call, names⟩).2 = .error failure →
      ((Store.empty.after steps).perform ⟨call, names⟩).1.find? name =
        (Store.empty.after steps).find? name

/-- A session is sound if calls on well-formed matrices answer well-formed matrices. -/
lemma soundSession [Element α] [Calling κ α]
    (hanswer : ∀ (s : Store α) (call : κ), s.WellFormed →
      Ensures Answer.WellFormed (Calling.answer s call))
    (writes : κ → String → Prop) (steps : List (Step κ)) : SoundSession writes steps := by
  obtain ⟨hkept, hanswered⟩ := Store.wellFormed_empty.after hanswer steps
  exact ⟨hkept, hkept.ensures_matrix, hanswered, fun call name names failure _ h => by
    rw [Store.perform_of_answer_eq_error h]⟩

/-- **Every session keeps the matrices well-formed.**  Whatever is called on matrices over any
elements, or over divisible and printable ones, in whatever order and whether it fails or not: every
matrix has rows, columns and as many entries as these say, and a write that fails changes
nothing. -/
theorem wellFormed_session :
    (∀ (α : Type) [Element α] (steps : List (Step (Call α))), SoundSession Call.Writes steps) ∧
    ∀ (α : Type) [Analytic α] [Printable α] (steps : List (Step (RealCall α))),
      SoundSession RealCall.Writes steps :=
  ⟨fun _ _ => soundSession (fun _ call hs => call.ensures_answer hs) _,
    fun _ _ _ => soundSession (fun _ call hs => call.ensures_answer hs) _⟩

end MatrixReckoner
