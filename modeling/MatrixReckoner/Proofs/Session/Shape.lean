import Mathlib.Data.Int.Notation
import Mathlib.Data.List.Basic
import MatrixReckoner.Proofs.Arithmetic.Failures
import MatrixReckoner.Session.Run

/-!
The shape of the result of an operation.

* `Ensures`: a condition on the answer of a computation, if it has one.
* `DenseMatrix.ensures_ofList`, `DenseMatrix.ensures_full` and so on: a constructor makes a matrix
  of the shape that it was asked for, and that shape fits.
* `DenseMatrix.ensures_set`, `DenseMatrix.ensures_zipM`, `DenseMatrix.ensures_power` and so on: an
  operation keeps the shape of its operand.
* `DenseMatrix.ensures_product`, `DenseMatrix.ensures_submatrix`, `DenseMatrix.ensures_quadrants`,
  `Blocks.ensures_join`: an operation changes the shape of its operands.
-/

namespace MatrixReckoner

variable {ε α β : Type}

/-! ### Conditions on answers -/

/-- The answer of a computation, if it has one, meets a condition. -/
def Ensures (P : β → Prop) (x : Except ε β) : Prop :=
  ∀ b, x = .ok b → P b

namespace Ensures

variable {P P' : α → Prop} {Q : β → Prop} {x : Except ε α}

lemma ok {a : α} (h : P a) : Ensures P (.ok a : Except ε α) := by
  rintro _ ⟨⟩
  exact h

lemma error (e : ε) : Ensures P (.error e : Except ε α) :=
  nofun

lemma any (x : Except ε α) : Ensures (fun _ => True) x :=
  fun _ _ => trivial

lemma mono (h : Ensures P x) (hP : ∀ a, P a → P' a) : Ensures P' x :=
  fun a ha => hP a (h a ha)

lemma bind {f : α → Except ε β} (h : Ensures P x) (hf : ∀ a, P a → Ensures Q (f a)) :
    Ensures Q (x >>= f) := by
  intro b hb
  obtain ⟨a, ha, hb⟩ := bind_eq_ok_iff.mp hb
  exact hf a (h a ha) b hb

lemma ite {c : Prop} [Decidable c] {y : Except ε α} (hx : c → Ensures P x)
    (hy : ¬ c → Ensures P y) : Ensures P (if c then x else y) := by
  split
  · next h => exact hx h
  · next h => exact hy h

lemma dite {c : Prop} [Decidable c] {x : c → Except ε α} {y : ¬ c → Except ε α}
    (hx : ∀ h, Ensures P (x h)) (hy : ∀ h, Ensures P (y h)) :
    Ensures P (if h : c then x h else y h) := by
  split
  · next h => exact hx h
  · next h => exact hy h

end Ensures

namespace DenseMatrix

/-! ### Constructors -/

section Constructors

variable [Element α]

lemma ensures_checkShape (rows cols : ℕ) :
    Ensures (fun _ => Shape.Fits (Element.bytes α) ⟨rows, cols⟩) (checkShape α rows cols) :=
  .ite (fun h => .ok h) fun _ => .error _

lemma ensures_ofList (rows cols : ℕ) (data : List α) :
    Ensures (fun a => a.shape = ⟨rows, cols⟩ ∧ a.shape.Fits (Element.bytes α))
      (ofList rows cols data) :=
  (ensures_checkShape rows cols).bind fun _ h => .dite (fun _ => .ok ⟨rfl, h⟩) fun _ => .error _

lemma ensures_ofRows (rows : List (List α)) :
    Ensures (fun a => a.shape = ⟨rows.length, (rows.head?.map List.length).getD 0⟩ ∧
      a.shape.Fits (Element.bytes α)) (ofRows rows) :=
  (ensures_checkShape _ _).bind fun _ h => .dite (fun _ => .ok ⟨rfl, h⟩) fun _ => .error _

lemma ensures_full (rows cols : ℕ) (x : α) :
    Ensures (fun a => a.shape = ⟨rows, cols⟩ ∧ a.shape.Fits (Element.bytes α))
      (full rows cols x) :=
  (ensures_checkShape rows cols).bind fun _ h => .ok ⟨rfl, h⟩

lemma ensures_identity (n : ℕ) :
    Ensures (fun a => a.shape = ⟨n, n⟩ ∧ a.shape.Fits (Element.bytes α))
      (identity n : Except MatrixError (DenseMatrix α)) :=
  (ensures_checkShape n n).bind fun _ h => .ok ⟨rfl, h⟩

end Constructors

/-! ### Operations that keep the shape -/

variable (a b : DenseMatrix α)

lemma ensures_set (row col : ℕ) (x : α) : Ensures (·.shape = a.shape) (a.set row col x) :=
  .dite (fun _ => .ok rfl) fun _ => .error _

lemma ensures_update (row col : ℕ) (f : α → Except Overflow α) :
    Ensures (·.shape = a.shape) (a.update row col f) :=
  (Ensures.any _).bind fun _ _ => (Ensures.any _).bind fun x _ => ensures_set a row col x

lemma shape_of_store?_eq_some {place : ℕ} {x : α} (h : a.store? place x = some b) :
    b.shape = a.shape := by
  rw [store?] at h
  split at h
  · cases h
    rfl
  · cases h

lemma ensures_mapM (f : α → Except Overflow α) : Ensures (·.shape = a.shape) (a.mapM f) :=
  (Ensures.any _).bind fun _ _ => .ok rfl

lemma ensures_zipM (f : α → α → Except Overflow α) : Ensures (·.shape = a.shape) (a.zipM f b) :=
  .dite (fun _ => (Ensures.any _).bind fun _ _ => .ok rfl) fun _ => .error _

lemma shape_eq_of_square {a b : DenseMatrix α} (h : a.rows = a.cols)
    (hb : b.shape = ⟨a.rows, a.rows⟩) : b.shape = a.shape := by
  rw [hb, shape, ← h]

section Element

variable [Element α]

lemma ensures_strassen : Ensures (·.shape = a.shape) (a.strassen b) := by
  intro c hc
  obtain ⟨e, x, y, z, rfl, rfl, rfl, -⟩ := exists_of_strassen_eq_ok hc
  rfl

lemma Answers.ensures {p : Except MatrixError (DenseMatrix α)} {s : Shape} (hp : Answers p s) :
    Ensures (·.shape = s) p := by
  rcases hp with ⟨c, rfl, hc⟩ | ⟨o, rfl, -⟩
  · exact .ok hc
  · exact .error _

lemma ensures_power (k : ℕ) : Ensures (·.shape = a.shape) (a.power k) := by
  by_cases h : a.rows = a.cols
  · exact (answers_power h k).ensures
  · rw [power_eq_notSquare h]
    exact .error _

lemma ensures_adjugate : Ensures (·.shape = a.shape) a.adjugate := by
  refine .ite (fun _ => .error _) fun h => .ite (fun hone => .ok ?_) fun _ => ?_
  · exact shape_eq_of_square (not_not.mp h) (congrArg₂ Shape.mk hone.symm hone.symm)
  · exact (Ensures.any _).bind fun _ _ => .ok (shape_eq_of_square (not_not.mp h) rfl)

end Element

section Analytic

variable [Analytic α]

lemma ensures_inverse : Ensures (·.shape = a.shape) a.inverse :=
  (Ensures.any _).bind fun _ _ => .ite (fun _ => .error _) fun _ =>
    (ensures_adjugate a).bind fun b hb => (ensures_mapM b _).mono fun _ hc => hc.trans hb

lemma ensures_integerPower (k : ℤ) : Ensures (·.shape = a.shape) (a.integerPower k) :=
  .ite
    (fun _ => (ensures_inverse a).bind fun b hb => (ensures_power b _).mono fun _ hc => hc.trans hb)
    fun _ => ensures_power a _

end Analytic

/-! ### Operations that change the shape -/

section Element

variable [Element α]

lemma ensures_product : Ensures (·.shape = ⟨a.rows, b.cols⟩) (a.product b) :=
  .dite (fun _ => (Ensures.any _).bind fun _ _ => .ok rfl) fun _ => .error _

lemma ensures_multiply : Ensures (·.shape = ⟨a.rows, b.cols⟩) (a.multiply b) := by
  refine .ite (fun h => (ensures_strassen a b).mono fun c hc => ?_) fun _ => ensures_product a b
  have hshape : b.shape = a.shape := by
    simp only [usesStrassen, Bool.and_eq_true, decide_eq_true_eq] at h
    exact h.1.2
  have hcols : b.cols = a.cols := congrArg Shape.cols hshape
  rw [hc, hcols, shape]

lemma ensures_submatrix (row col : ℕ) :
    Ensures (fun b => b.shape = ⟨a.rows - 1, a.cols - 1⟩ ∧ b.shape.Fits (Element.bytes α))
      (a.submatrix row col) := by
  rcases a with ⟨_ | m, _ | n, cells⟩
  · exact .error _
  · exact .error _
  · exact .error _
  · exact .dite (fun _ => (ensures_checkShape m n).bind fun _ h => .ok ⟨rfl, h⟩) fun _ => .error _

end Element

/-- Quarters have half the order, which is even. -/
lemma ensures_quadrants :
    Ensures (fun q => a.rows = a.rows / 2 + a.rows / 2 ∧
      ∀ b ∈ q.toList, b.shape = ⟨a.rows / 2, a.rows / 2⟩) a.quadrants := by
  refine (Ensures.any _).bind fun _ _ => .dite (fun h => .ok ⟨h, fun b hb => ?_⟩) fun _ => .error _
  simp only [Blocks.toList, List.mem_cons, List.not_mem_nil, or_false] at hb
  rcases hb with rfl | rfl | rfl | rfl <;> rfl

end DenseMatrix

/-- Blocks that are joined have one order, and the matrix that they make up has twice that. -/
lemma Blocks.ensures_join (q : Blocks α) :
    Ensures (·.shape = ⟨q.topLeft.rows + q.topLeft.rows, q.topLeft.rows + q.topLeft.rows⟩)
      q.join :=
  (Ensures.any _).bind fun _ _ => (Ensures.any _).bind fun _ _ =>
    (Ensures.any _).bind fun _ _ => (Ensures.any _).bind fun _ _ => .ok rfl

end MatrixReckoner
