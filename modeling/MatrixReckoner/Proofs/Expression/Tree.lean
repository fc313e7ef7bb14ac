import Mathlib.Tactic
import MatrixReckoner.Expression.Reader

/-!
Expressions as trees, their values, and the texts that spell them.

* `Tree`, `Tree.eval`: the value of a tree, the left operand before the right one and both before
  their operator; `Tree.value` asks for a matrix at the root.
* `Decimal.Spelled`, `Exponent.Spelled`, `RowsSpelled`, `Tree.LeafSpelled`: the texts of numbers,
  exponents, rows and leaves. Two entries of a row are parted by a blank, or by a character that
  cannot continue the first of them (`Parted`).
* `Tree.Spelled`: the texts of trees. The level is the least priority that an operator at the root
  may have without parentheses, so a left operand stands at the priority of its operator, a right
  operand one above it, and the operand of a power at level three.
* `Tree.newline_notMem`: a text of a tree stands on one line.
-/

namespace MatrixReckoner.Expression

/-! ### Characters -/

/-- Characters that are all blanks within a line. -/
def Blanks (b : List Char) : Prop := ∀ c ∈ b, isInlineBlank c

/-- Characters that are all decimal digits. -/
def Digits (u : List Char) : Prop := ∀ c ∈ u, c.isDigit

instance Blanks.instDecidable (b : List Char) : Decidable (Blanks b) :=
  List.decidableBAll (fun c : Char => isInlineBlank c = true) b

instance Digits.instDecidable (u : List Char) : Decidable (Digits u) :=
  List.decidableBAll (fun c : Char => c.isDigit = true) u

/-- The line is over where `v` begins: at the end of the text, or before the next line. -/
def LineEnds (v : List Char) : Prop := v = [] ∨ ∃ w, v = '\n' :: w

/-- A character that makes a longer number of the number `u`: a digit, or the first point. -/
def Continues (u : List Char) (c : Char) : Prop := c.isDigit ∨ c = '.' ∧ '.' ∉ u

/-- The number `u` is over where `v` begins: at the end, at a blank, or at a character that does not
continue it. -/
def Parted (u v : List Char) : Prop := ∀ c ∈ v.head?, isInlineBlank c ∨ ¬ Continues u c

/-! ### Numbers -/

/-- A decimal number with a minus sign or without a sign. -/
structure Decimal where
  negative : Bool
  numeral : Numeral

/-- The double that the number denotes. -/
def Decimal.value (d : Decimal) : Float :=
  if d.negative then -d.numeral.toDouble else d.numeral.toDouble

/-- The texts of a numeral: its digits, with a point between them unless nothing follows it. There
is a digit on one side of the point at least. -/
inductive NumeralSpelled : Numeral → List Char → Prop where
  | whole {w : List Char} : Digits w → w ≠ [] → NumeralSpelled ⟨w, []⟩ w
  | point {w f : List Char} : Digits w → Digits f → w ++ f ≠ [] →
      NumeralSpelled ⟨w, f⟩ (w ++ '.' :: f)

/-- The texts of a decimal number: the sign stands directly before the digits. -/
def Decimal.Spelled (d : Decimal) (u : List Char) : Prop :=
  ∃ v, NumeralSpelled d.numeral v ∧ u = signText d.negative ++ v

/-! ### Rows of a literal -/

/-- The texts of a row, from the bracket or semicolon before it up to the one behind it. -/
inductive RowSpelled : List Decimal → List Char → Prop where
  | nil {b : List Char} : Blanks b → RowSpelled [] b
  | cons {b u v : List Char} {d : Decimal} {row : List Decimal} : Blanks b → d.Spelled u →
      Parted u v → RowSpelled row v → RowSpelled (d :: row) (b ++ u ++ v)

/-- The texts of one or more rows, without the brackets around them. -/
inductive RowsSpelled : List (List Decimal) → List Char → Prop where
  | last {u : List Char} {row : List Decimal} : RowSpelled row u → RowsSpelled [row] u
  | cons {u v : List Char} {row : List Decimal} {rows : List (List Decimal)} : RowSpelled row u →
      RowsSpelled rows v → RowsSpelled (row :: rows) (u ++ ';' :: v)

/-! ### Exponents -/

/-- What stands behind the sign of a power. -/
inductive Exponent where
  | transpose
  | integer (k : ℤ)

/-- The power of a matrix. -/
def Exponent.apply (a : DenseMatrix Float) : Exponent → Except MatrixError (DenseMatrix Float)
  | transpose => .ok a.transpose
  | integer k => a.integerPower k

/-- The power of an operand. Only a matrix has powers; a refusal names the column of the sign. -/
def Exponent.raise (caret : ℕ) (e : Exponent) : Operand → Except ExpressionError Operand
  | .matrix a => ((e.apply a).mapError .matrix).map .matrix
  | .scalar _ => .error (.invalidPower caret)

/-- The texts of a sign before an integer, and the factor that it stands for. -/
inductive SignSpelled : ℤ → List Char → Prop where
  | none : SignSpelled 1 []
  | plus : SignSpelled 1 ['+']
  | minus : SignSpelled (-1) ['-']

/-- The texts of an exponent. An integer has 32 bits. -/
inductive Exponent.Spelled : Exponent → List Char → Prop where
  | transpose : Spelled .transpose ['T']
  | integer {σ k : ℤ} {s w : List Char} : SignSpelled σ s → Digits w → w ≠ [] →
      k = σ * Nat.ofDigitChars 10 w 0 → -2 ^ 31 ≤ k → k < 2 ^ 31 →
      Spelled (.integer k) (s ++ w)

/-! ### Trees -/

/-- An expression. The sign of a power is kept with its column, which a refusal names. -/
inductive Tree where
  | literal (rows : List (List Decimal))
  | scalar (d : Decimal)
  | identity (n : ℕ)
  | binary (op : Operator) (l r : Tree)
  | power (caret : ℕ) (e : Exponent) (t : Tree)

namespace Tree

/-- The value of an expression: operands from left to right, then their operator. -/
def eval : Tree → Except ExpressionError Operand
  | literal rows =>
    let values := rows.map (List.map Decimal.value)
    ((DenseMatrix.ofList values.length (values.headD []).length values.flatten).mapError
      .matrix).map .matrix
  | scalar d => .ok (.scalar d.value)
  | identity n => ((DenseMatrix.identity n).mapError .matrix).map .matrix
  | binary op l r => do
    let x ← l.eval
    let y ← r.eval
    op.combine x y
  | power caret e t => do
    let x ← t.eval
    e.raise caret x

/-- The value of a whole line, which has to be a matrix. -/
def value (t : Tree) : Evaluation := do
  match ← t.eval with
  | .matrix a => .ok a
  | .scalar _ => .error .scalarResult

/-- The texts of the leaves. The rows of a literal are as long as one another and not empty, and the
order of an identity has 64 bits. -/
inductive LeafSpelled : Tree → List Char → Prop where
  | literal {n : ℕ} {rows : List (List Decimal)} {u : List Char} : 0 < n →
      (∀ row ∈ rows, row.length = n) → RowsSpelled rows u →
      LeafSpelled (.literal rows) ('[' :: u ++ [']'])
  | scalar {d : Decimal} {u : List Char} : d.Spelled u → LeafSpelled (.scalar d) u
  | identity {letter : Char} {n : ℕ} {w : List Char} : letter = 'E' ∨ letter = 'I' → Digits w →
      w ≠ [] → n = Nat.ofDigitChars 10 w 0 → n < 2 ^ 64 →
      LeafSpelled (.identity n) (letter :: w)

/-- The texts of a tree that may stand at a level, from a column on. -/
inductive Spelled : ℕ → ℕ → Tree → List Char → Prop where
  | leaf {level column : ℕ} {t : Tree} {u : List Char} : t.LeafSpelled u →
      Spelled level column t u
  | group {level column : ℕ} {t : Tree} {b b' u : List Char} : Blanks b → Blanks b' →
      Spelled 1 (column + 1 + b.length) t u →
      Spelled level column t ('(' :: b ++ u ++ b' ++ [')'])
  | binary {level column : ℕ} {op : Operator} {l r : Tree} {b b' u v : List Char} :
      level ≤ op.priority → Blanks b → Blanks b' → Spelled op.priority column l u →
      Spelled (op.priority + 1) (column + u.length + b.length + 1 + b'.length) r v →
      Spelled level column (.binary op l r) (u ++ b ++ op.symbol :: b' ++ v)
  | power {level column : ℕ} {e : Exponent} {t : Tree} {b b' u w : List Char} : Blanks b →
      Blanks b' → Spelled 3 column t u → e.Spelled w →
      Spelled level column (.power (column + u.length + b.length) e t)
        (u ++ b ++ '^' :: b' ++ w)

end Tree

/-! ### Spelled texts stand on one line -/

/-- The character is in no text of a leaf or of an exponent. -/
def Foreign (ch : Char) : Prop :=
  isInlineBlank ch = false ∧ ch.isDigit = false ∧
    ch ∉ ['.', '-', '+', ';', '[', ']', 'E', 'I', 'T']

instance Foreign.instDecidable (ch : Char) : Decidable (Foreign ch) :=
  inferInstanceAs (Decidable (_ ∧ _ ∧ _))

section Foreign

variable {u : List Char} {ch : Char} (hch : Foreign ch)

include hch

lemma Blanks.notMem (h : Blanks u) : ch ∉ u :=
  fun hmem => absurd (h ch hmem) (by simp [hch.1])

lemma Digits.notMem (h : Digits u) : ch ∉ u :=
  fun hmem => absurd (h ch hmem) (by simp [hch.2.1])

lemma NumeralSpelled.notMem {n : Numeral} (h : NumeralSpelled n u) : ch ∉ u := by
  obtain ⟨-, -, hmarks⟩ := id hch
  cases h with
  | whole hw => exact hw.notMem hch
  | point hw hf => simp_all [hw.notMem hch, hf.notMem hch]

lemma Decimal.notMem {d : Decimal} (h : d.Spelled u) : ch ∉ u := by
  obtain ⟨-, -, hmarks⟩ := id hch
  obtain ⟨v, hv, rfl⟩ := h
  cases d.negative <;> simp_all [signText, hv.notMem hch]

lemma RowSpelled.notMem {row : List Decimal} (h : RowSpelled row u) : ch ∉ u := by
  induction h with
  | nil hb => exact hb.notMem hch
  | cons hb hd _ _ ih => simp [hb.notMem hch, Decimal.notMem hch hd, ih]

lemma RowsSpelled.notMem {rows : List (List Decimal)} (h : RowsSpelled rows u) : ch ∉ u := by
  obtain ⟨-, -, hmarks⟩ := id hch
  induction h with
  | last hrow => exact hrow.notMem hch
  | cons hrow _ ih => simp_all [hrow.notMem hch]

lemma Exponent.notMem {e : Exponent} (h : e.Spelled u) : ch ∉ u := by
  obtain ⟨-, -, hmarks⟩ := id hch
  cases h with
  | transpose => simp_all
  | integer hs hw => cases hs <;> simp_all [hw.notMem hch]

lemma Tree.notMem_of_leaf {t : Tree} (h : t.LeafSpelled u) : ch ∉ u := by
  obtain ⟨-, -, hmarks⟩ := id hch
  cases h with
  | literal _ _ hrows => simp_all [hrows.notMem hch]
  | scalar hd => exact Decimal.notMem hch hd
  | identity hletter hw => rcases hletter with rfl | rfl <;> simp_all [hw.notMem hch]

end Foreign

lemma foreign_newline : Foreign '\n' := by decide

section OneLine

variable {u : List Char}

lemma Blanks.newline_notMem (h : Blanks u) : '\n' ∉ u := h.notMem foreign_newline

lemma RowSpelled.newline_notMem {row : List Decimal} (h : RowSpelled row u) : '\n' ∉ u :=
  h.notMem foreign_newline

/-- A text of a tree has no end of a line in it. -/
lemma Tree.newline_notMem {level column : ℕ} {t : Tree} (h : t.Spelled level column u) :
    '\n' ∉ u := by
  induction h with
  | leaf h => exact notMem_of_leaf foreign_newline h
  | group hb hb' _ ih => simp [hb.newline_notMem, hb'.newline_notMem, ih]
  | @binary _ _ op _ _ _ _ _ _ _ hb hb' _ _ ihl ihr =>
      have hop : op.symbol ≠ '\n' := by cases op <;> decide
      simp [hb.newline_notMem, hb'.newline_notMem, ihl, ihr, hop.symm]
  | power hb hb' _ he ih =>
      simp [hb.newline_notMem, hb'.newline_notMem, Exponent.notMem foreign_newline he, ih]

end OneLine

end MatrixReckoner.Expression
