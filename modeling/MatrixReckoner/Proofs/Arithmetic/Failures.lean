import MatrixReckoner.Element.Floating
import MatrixReckoner.Proofs.Arithmetic.Multiply

/-!
Why products and powers of matrices fail: the shapes of the operands do not fit, or an operation on
the entries overflows.

* `Overflows`: an addition, a subtraction or a multiplication of numbers can overflow.
* `Grid.FailsByOverflow`: a computation fails only where one of these overflows, and its rules.
* `Grid.failsByOverflow_product`, `Grid.failsByOverflow_strassen`: so do both products.
* `DenseMatrix.Answers`: a computation has a matrix of a certain shape, or fails by an overflow.
* `DenseMatrix.answers_multiply`, `DenseMatrix.answers_power`: products and powers of operands whose
  shapes fit.
* `DenseMatrix.products_answer_by_shape`: what the products answer, by the shapes of the operands.
-/

namespace MatrixReckoner

open MatrixError (ofArithmetic)
open Grid (side IsSide)

variable {α β γ : Type}

/-- The sum, the difference or the product of two numbers overflows. -/
def Overflows (α : Type) [Element α] (o : Overflow) : Prop :=
  ∃ x y : α, Element.add x y = .error o ∨ Element.sub x y = .error o ∨ Element.mul x y = .error o

namespace Grid

variable [Element α] {m k n : ℕ}

/-- The computation fails only where an operation on numbers overflows. -/
def FailsByOverflow (α : Type) [Element α] (x : Except Overflow β) : Prop :=
  ∀ o, x = .error o → Overflows α o

/-! ### Rules -/

namespace FailsByOverflow

lemma ok (b : β) : FailsByOverflow α (.ok b) :=
  nofun

lemma bind {x : Except Overflow β} {f : β → Except Overflow γ} (hx : FailsByOverflow α x)
    (hf : ∀ b, FailsByOverflow α (f b)) : FailsByOverflow α (x >>= f) := by
  intro o h
  rcases bind_eq_error_iff.mp h with h | ⟨b, -, h⟩
  · exact hx o h
  · exact hf b o h

lemma map {x : Except Overflow β} (f : β → γ) (hx : FailsByOverflow α x) :
    FailsByOverflow α (f <$> x) := by
  cases x with
  | ok b => exact ok (f b)
  | error o =>
      intro o' h
      cases h
      exact hx o rfl

lemma foldlM {f : β → γ → Except Overflow β} (hf : ∀ b c, FailsByOverflow α (f b c)) (l : List γ)
    (b : β) : FailsByOverflow α (l.foldlM f b) := by
  induction l generalizing b with
  | nil => exact ok b
  | cons c l ih =>
      rw [List.foldlM_cons]
      exact (hf b c).bind ih

lemma ofFnM {f : Fin n → Except Overflow β} (hf : ∀ i, FailsByOverflow α (f i)) :
    FailsByOverflow α (Vector.ofFnM f) := by
  induction n with
  | zero =>
      rw [Vector.ofFnM_zero]
      exact ok #v[]
  | succ n ih =>
      rw [Vector.ofFnM_succ]
      exact (ih fun i => hf i.castSucc).bind fun _ => (hf (Fin.last n)).bind fun _ => ok _

lemma tabulate {f : Fin m → Fin n → Except Overflow β} (hf : ∀ i j, FailsByOverflow α (f i j)) :
    FailsByOverflow α (Grid.tabulate f) :=
  (ofFnM fun i => ofFnM (hf i)).map Grid.mk

end FailsByOverflow

/-! ### Operations on numbers and on grids -/

lemma failsByOverflow_element_add (x y : α) : FailsByOverflow α (Element.add x y) :=
  fun _ h => ⟨x, y, Or.inl h⟩

lemma failsByOverflow_element_sub (x y : α) : FailsByOverflow α (Element.sub x y) :=
  fun _ h => ⟨x, y, Or.inr (Or.inl h)⟩

lemma failsByOverflow_element_mul (x y : α) : FailsByOverflow α (Element.mul x y) :=
  fun _ h => ⟨x, y, Or.inr (Or.inr h)⟩

lemma failsByOverflow_add (a b : Grid α m n) : FailsByOverflow α (a.add b) :=
  .tabulate fun _ _ => failsByOverflow_element_add _ _

lemma failsByOverflow_sub (a b : Grid α m n) : FailsByOverflow α (a.sub b) :=
  .tabulate fun _ _ => failsByOverflow_element_sub _ _

lemma failsByOverflow_scale (a : Grid α m n) (s : α) : FailsByOverflow α (a.scale s) :=
  .tabulate fun _ _ => failsByOverflow_element_mul _ _

/-! ### Products -/

lemma failsByOverflow_product (a : Grid α m k) (b : Grid α k n) :
    FailsByOverflow α (a.product b) := by
  refine .map Grid.mk (.ofFnM fun i => .foldlM (fun acc p => .ofFnM fun j => ?_) _ _)
  exact (failsByOverflow_element_mul _ _).bind fun _ => failsByOverflow_element_add _ _

lemma failsByOverflow_strassen (e : ℕ) (x y : Grid α (side e) (side e)) :
    FailsByOverflow α (Grid.strassen e x y) := by
  induction e with
  | zero => exact failsByOverflow_scale x _
  | succ i ih =>
      rw [Grid.strassen]
      generalize Grid.quadrants (h := side i) x = qx
      generalize Grid.quadrants (h := side i) y = qy
      obtain ⟨a, b, c, d⟩ := qx
      obtain ⟨e, f, g, h⟩ := qy
      -- the operands of the seven products, these products, and the sums that make up the quarters
      exact (failsByOverflow_sub f h).bind fun fh => (ih a fh).bind fun p₁ =>
        (failsByOverflow_add a b).bind fun ab => (ih ab h).bind fun p₂ =>
        (failsByOverflow_add c d).bind fun cd => (ih cd e).bind fun p₃ =>
        (failsByOverflow_sub g e).bind fun ge => (ih d ge).bind fun p₄ =>
        (failsByOverflow_add a d).bind fun ad => (failsByOverflow_add e h).bind fun eh =>
        (ih ad eh).bind fun p₅ =>
        (failsByOverflow_sub b d).bind fun bd => (failsByOverflow_add g h).bind fun gh =>
        (ih bd gh).bind fun p₆ =>
        (failsByOverflow_sub a c).bind fun ac => (failsByOverflow_add e f).bind fun ef =>
        (ih ac ef).bind fun p₇ =>
        (failsByOverflow_add p₅ p₄).bind fun s₁ => (failsByOverflow_sub s₁ p₂).bind fun s₂ =>
        (failsByOverflow_add s₂ p₆).bind fun _ => (failsByOverflow_add p₁ p₂).bind fun _ =>
        (failsByOverflow_add p₃ p₄).bind fun _ => (failsByOverflow_add p₁ p₅).bind fun s₃ =>
        (failsByOverflow_sub s₃ p₃).bind fun s₄ => (failsByOverflow_sub s₄ p₇).bind fun _ => .ok _

end Grid

namespace DenseMatrix

variable [Element α]

/-! ### Shapes of operands -/

/-- The computation has a matrix of the shape `s`, unless an operation on the entries overflows. -/
def Answers (x : Except MatrixError (DenseMatrix α)) (s : Shape) : Prop :=
  (∃ c, x = .ok c ∧ c.shape = s) ∨ ∃ o, x = .error (.overflow o) ∧ Overflows α o

lemma answers_mk {m n : ℕ} {x : Except Overflow (Grid α m n)} (hx : Grid.FailsByOverflow α x) :
    Answers ((⟨m, n, ·⟩) <$> ofArithmetic x) ⟨m, n⟩ := by
  cases x with
  | ok z => exact Or.inl ⟨⟨m, n, z⟩, rfl, rfl⟩
  | error o => exact Or.inr ⟨o, rfl, hx o rfl⟩

lemma answers_product {a b : DenseMatrix α} (h : a.cols = b.rows) :
    Answers (a.product b) ⟨a.rows, b.cols⟩ := by
  obtain ⟨m, k, x⟩ := a
  obtain ⟨k', n, y⟩ := b
  obtain rfl : k = k' := h
  rw [product_mk]
  exact answers_mk (Grid.failsByOverflow_product x y)

lemma answers_strassen {a b : DenseMatrix α} (ha : a.rows = a.cols) (hb : b.shape = a.shape)
    (hside : ∃ e, a.rows = 2 ^ e) : Answers (a.strassen b) a.shape := by
  obtain ⟨e, x, y, rfl, rfl⟩ := exists_side ha hb (isSide_iff.mpr hside)
  rw [strassen_mk]
  exact answers_mk (Grid.failsByOverflow_strassen e x y)

lemma answers_multiply {a b : DenseMatrix α} (h : a.cols = b.rows) :
    Answers (a.multiply b) ⟨a.rows, b.cols⟩ := by
  rw [multiply]
  split
  · next huses =>
    obtain ⟨ha, hb, hside⟩ := shape_of_usesStrassen huses
    have hcols : b.cols = a.cols := congrArg Shape.cols hb
    rw [hcols]
    exact answers_strassen ha hb hside
  · exact answers_product h

lemma multiply_eq_incompatible {a b : DenseMatrix α} (h : a.cols ≠ b.rows) :
    a.multiply b = .error (.incompatibleShape a.shape b.shape) := by
  rw [multiply, if_neg, product, dif_neg h]
  intro huses
  obtain ⟨ha, hb, -⟩ := shape_of_usesStrassen huses
  have hrows : b.rows = a.rows := congrArg Shape.rows hb
  exact h (ha.symm.trans hrows.symm)

lemma strassen_eq_notSquare (b : DenseMatrix α) {a : DenseMatrix α} (ha : a.rows ≠ a.cols) :
    a.strassen b = .error (.notSquare a.rows a.cols) := by
  rw [strassen, if_pos ha]

lemma strassen_eq_incompatible {a b : DenseMatrix α} (ha : a.rows = a.cols)
    (hb : b.shape ≠ a.shape) : a.strassen b = .error (.incompatibleShape a.shape b.shape) := by
  rw [strassen, if_neg (not_not.mpr ha), if_pos hb]

lemma strassen_eq_invalidDimension {a b : DenseMatrix α} (ha : a.rows = a.cols)
    (hb : b.shape = a.shape) (hside : ¬ ∃ e, a.rows = 2 ^ e) :
    a.strassen b = .error (.invalidDimension a.rows a.rows) := by
  rw [strassen, if_neg (not_not.mpr ha), if_neg (not_not.mpr hb), if_neg (mt isSide_iff.mp hside)]

/-! ### Powers -/

lemma Answers.bind {p : Except MatrixError (DenseMatrix α)} {s t : Shape}
    {f : DenseMatrix α → Except MatrixError (DenseMatrix α)} (hp : Answers p s)
    (hf : ∀ c : DenseMatrix α, c.shape = s → Answers (f c) t) : Answers (p >>= f) t := by
  rcases hp with ⟨c, rfl, hc⟩ | ⟨o, rfl, ho⟩
  · exact hf c hc
  · exact Or.inr ⟨o, rfl, ho⟩

/-- Over numbers whose arithmetic does not overflow there is an answer. -/
lemma Answers.exists_eq_ok {p : Except MatrixError (DenseMatrix α)} {s : Shape}
    (hp : Answers p s) (hα : ∀ o, ¬ Overflows α o) : ∃ c, p = .ok c ∧ c.shape = s := by
  rcases hp with hp | ⟨o, -, ho⟩
  · exact hp
  · exact absurd ho (hα o)

lemma answers_powerSteps {a : DenseMatrix α} (ha : a.rows = a.cols) (k : ℕ) :
    Answers (powerSteps a k) a.shape := by
  induction k using powerSteps.induct with
  | case1 k hone =>
      rw [powerSteps, if_pos hone]
      exact Or.inl ⟨a, rfl, rfl⟩
  | case2 k hone ih =>
      rw [powerSteps, if_neg hone]
      have hmultiply : ∀ {b c : DenseMatrix α}, b.shape = a.shape → c.shape = a.shape →
          Answers (b.multiply c) a.shape := by
        rintro ⟨_, _, _⟩ ⟨_, _, _⟩ ⟨⟩ ⟨⟩
        exact answers_multiply ha.symm
      refine ih.bind fun half hhalf => (hmultiply hhalf hhalf).bind fun square hsquare => ?_
      split
      · exact Or.inl ⟨square, rfl, hsquare⟩
      · exact hmultiply hsquare rfl

/-- The power of a square matrix is computed, unless an operation on the entries overflows. -/
lemma answers_power {a : DenseMatrix α} (ha : a.rows = a.cols) (k : ℕ) :
    Answers (a.power k) a.shape := by
  rw [power, if_neg (not_not.mpr ha)]
  split
  · exact Or.inl ⟨_, rfl, congrArg (Shape.mk a.rows) ha⟩
  · exact answers_powerSteps ha k

lemma power_eq_notSquare {a : DenseMatrix α} (ha : a.rows ≠ a.cols) (k : ℕ) :
    a.power k = .error (.notSquare a.rows a.cols) :=
  if_pos ha

/-! ### Overflows -/

/-- Numbers with a fraction are rounded, and none of the operations overflows. -/
lemma not_overflows_float (o : Overflow) : ¬ Overflows Float o ∧ ¬ Overflows Float32 o := by
  constructor
  · rintro ⟨x, y, h | h | h⟩ <;> cases h
  · rintro ⟨x, y, h | h | h⟩ <;> cases h

section BoundedInt

variable {w : IntWidth} {m k n : ℕ}

lemma exists_mk_iff {α : Type} {x : Except Overflow (Grid α m n)} :
    (∃ c : DenseMatrix α, (⟨m, n, ·⟩) <$> ofArithmetic x = .ok c) ↔ ∃ g, x = .ok g := by
  simp only [map_eq_ok_iff, MatrixError.ofArithmetic_eq_ok_iff]
  constructor
  · rintro ⟨_, g, hg, -⟩
    exact ⟨g, hg⟩
  · rintro ⟨g, hg⟩
    exact ⟨⟨m, n, g⟩, g, hg, rfl⟩

lemma inRange_eq (w : IntWidth) :
    InRange (BoundedInt w) = fun r => -w.limit ≤ r ∧ r < w.limit :=
  funext fun _ => propext BoundedInt.inRange_iff

/-- The classical product of bounded integers has a value exactly if no term and no partial sum is
out of range. -/
lemma exists_product_mk_iff (x : Grid (BoundedInt w) m k) (y : Grid (BoundedInt w) k n) :
    (∃ c, product ⟨m, k, x⟩ ⟨k, n, y⟩ = .ok c) ↔
      Grid.ProductFits (fun r => -w.limit ≤ r ∧ r < w.limit) x.values y.values := by
  rw [product_mk, exists_mk_iff, Grid.exists_product_eq_ok_iff, inRange_eq]

/-- Strassen's product of bounded integers has a value exactly if no sum, difference or product of
its scheme is out of range. -/
lemma exists_strassen_mk_iff {e : ℕ} (x y : Grid (BoundedInt w) (side e) (side e)) :
    (∃ c, strassen ⟨side e, side e, x⟩ ⟨side e, side e, y⟩ = .ok c) ↔
      Grid.StrassenFits (fun r => -w.limit ≤ r ∧ r < w.limit) e x.values y.values := by
  rw [strassen_mk, exists_mk_iff, (Grid.strassen_yields e rfl rfl).exists_eq_ok_iff, inRange_eq]

end BoundedInt

/-- **Why products fail**: by the shapes of the operands, or because an operation on the entries
overflows.

The product of two matrices whose shapes do not fit together is refused for that, and any other has
the rows of the left and the columns of the right operand, if such a matrix can be stored.
Strassen's product is refused for the first of three reasons: the left operand is not square, the
right one has another shape, or the order is not a power of two.  It is chosen only where none of
them holds, and no check fails on its way.  Products of floating-point numbers never overflow; those
of bounded integers do exactly where an intermediate result is out of range. -/
theorem products_answer_by_shape :
    (∀ (α : Type) [Element α] (a b : DenseMatrix α),
      (a.cols ≠ b.rows → a.multiply b = .error (.incompatibleShape a.shape b.shape)) ∧
      (a.cols = b.rows → Shape.Fits (Element.bytes α) ⟨a.rows, b.cols⟩ →
        Answers (a.multiply b) ⟨a.rows, b.cols⟩) ∧
      (a.rows ≠ a.cols → a.strassen b = .error (.notSquare a.rows a.cols)) ∧
      (a.rows = a.cols → b.shape ≠ a.shape →
        a.strassen b = .error (.incompatibleShape a.shape b.shape)) ∧
      (a.rows = a.cols → b.shape = a.shape → (¬ ∃ e, a.rows = 2 ^ e) →
        a.strassen b = .error (.invalidDimension a.rows a.rows)) ∧
      (a.rows = a.cols → b.shape = a.shape → (∃ e, a.rows = 2 ^ e) →
        Answers (a.strassen b) a.shape) ∧
      (usesStrassen a b → a.multiply b = a.strassen b ∧
        a.rows = a.cols ∧ b.shape = a.shape ∧ ∃ e, a.rows = 2 ^ e) ∧
      (¬ usesStrassen a b → a.multiply b = a.product b)) ∧
    (∀ o, ¬ Overflows Float o ∧ ¬ Overflows Float32 o) ∧
    ∀ w : IntWidth,
      (∀ (m k n : ℕ) (x : Grid (BoundedInt w) m k) (y : Grid (BoundedInt w) k n),
        (∃ c, product ⟨m, k, x⟩ ⟨k, n, y⟩ = .ok c) ↔
          Grid.ProductFits (fun r => -w.limit ≤ r ∧ r < w.limit) x.values y.values) ∧
      ∀ (e : ℕ) (x y : Grid (BoundedInt w) (side e) (side e)),
        (∃ c, strassen ⟨side e, side e, x⟩ ⟨side e, side e, y⟩ = .ok c) ↔
          Grid.StrassenFits (fun r => -w.limit ≤ r ∧ r < w.limit) e x.values y.values := by
  refine ⟨fun α _ a b => ?_, not_overflows_float, fun w => ?_⟩
  · exact ⟨multiply_eq_incompatible, fun h _ => answers_multiply h, strassen_eq_notSquare b,
      strassen_eq_incompatible, strassen_eq_invalidDimension, answers_strassen,
      fun h => ⟨if_pos h, shape_of_usesStrassen h⟩, fun h => if_neg h⟩
  · exact ⟨fun _ _ _ => exists_product_mk_iff, fun _ => exists_strassen_mk_iff⟩

/-- Matrices of ones, of small shapes of all kinds. -/
theorem products_answer_by_shape_of_ones :
    let ones (m n : ℕ) : DenseMatrix (BoundedInt .w32) := ⟨m, n, .replicate m n .one⟩
    (ones 1 2).multiply (ones 1 2) = .error (.incompatibleShape ⟨1, 2⟩ ⟨1, 2⟩) ∧
      Answers ((ones 1 2).multiply (ones 2 3)) ⟨1, 3⟩ ∧
      (ones 1 2).multiply (ones 2 3) = (ones 1 2).product (ones 2 3) ∧
      (ones 1 2).strassen (ones 1 2) = .error (.notSquare 1 2) ∧
      (ones 2 2).strassen (ones 1 1) = .error (.incompatibleShape ⟨2, 2⟩ ⟨1, 1⟩) ∧
      (ones 3 3).strassen (ones 3 3) = .error (.invalidDimension 3 3) ∧
      Answers ((ones 1 1).strassen (ones 1 1)) ⟨1, 1⟩ ∧
      (ones 2 2).multiply (ones 2 2) = (ones 2 2).strassen (ones 2 2) ∧
      Grid.ProductFits (fun r => -IntWidth.w32.limit ≤ r ∧ r < IntWidth.w32.limit)
        (ones 2 2).cells.values (ones 2 2).cells.values := by
  intro ones
  obtain ⟨hshapes, -, hfits⟩ := products_answer_by_shape
  have hanswers := hshapes (BoundedInt .w32)
  have hthree : ¬ ∃ e, 3 = 2 ^ e := mt isSide_iff.mpr (by decide)
  have hproduct : product ⟨2, 2, .replicate 2 2 .one⟩ ⟨2, 2, .replicate 2 2 .one⟩ =
      .ok (⟨2, 2, .replicate 2 2 ⟨2, by decide, by decide⟩⟩ : DenseMatrix (BoundedInt .w32)) := by
    decide +kernel
  exact ⟨(hanswers (ones 1 2) (ones 1 2)).1 (by decide),
    (hanswers (ones 1 2) (ones 2 3)).2.1 rfl (by decide),
    (hanswers (ones 1 2) (ones 2 3)).2.2.2.2.2.2.2 (by decide),
    (hanswers (ones 1 2) (ones 1 2)).2.2.1 (by decide),
    (hanswers (ones 2 2) (ones 1 1)).2.2.2.1 rfl (by decide),
    (hanswers (ones 3 3) (ones 3 3)).2.2.2.2.1 rfl rfl hthree,
    (hanswers (ones 1 1) (ones 1 1)).2.2.2.2.2.1 rfl rfl ⟨0, rfl⟩,
    ((hanswers (ones 2 2) (ones 2 2)).2.2.2.2.2.2.1 (by decide)).1,
    ((hfits .w32).1 2 2 2 _ _).mp ⟨_, hproduct⟩⟩

end DenseMatrix

end MatrixReckoner
