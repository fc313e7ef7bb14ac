import MatrixReckoner.Proofs.Expression.Evaluation
import MatrixReckoner.Proofs.Floating.Words
import MatrixReckoner.Proofs.Grid.Rows
import MatrixReckoner.Proofs.Number.FixedText

/-!
A matrix that is read back from its text has that text.

* `Decimal.fixed`: the decimal number that is spelled by the text of a finite double.
* `Decimal.text_value_fixed`: its value has the same text.
* `Expression.rowsSpelled_lines`: the lines of a matrix, with semicolons between them, spell the
  rows of these decimal numbers.
* `DenseMatrix.literalText`, `DenseMatrix.evaluate_literalText`: the text of a matrix as a literal,
  and what it is read as.
-/

namespace MatrixReckoner

open Expression
open BinaryFormat (double)

/-! ### Entries -/

namespace Expression.Decimal

/-- The decimal number that the text of a double spells, with a number of places. -/
def fixed (places : ℕ) (x : Float) : Decimal :=
  match Printable.value x with
  | .finite negative num den =>
    ⟨negative, .fixed places (roundHalfEven (num * 10 ^ places) den)⟩
  | _ => ⟨false, .fixed places 0⟩

variable {x : Float} (hx : x.isFinite = true) (places : ℕ)

include hx

lemma spelled_fixed : (fixed places x).Spelled ((Printable.value x).text places) := by
  obtain ⟨negative, magnitude, -, hvalue⟩ := Double.exists_value_eq_finite hx
  rw [fixed, hvalue]
  exact ⟨_, Numeral.fixed_spelled places _ _, rfl⟩

/-- The double that is read from the text of a double has that text. -/
lemma text_value_fixed :
    (Printable.value (fixed places x).value).text places = (Printable.value x).text places := by
  obtain ⟨negative, magnitude, hmagnitude, hvalue⟩ := Double.exists_value_eq_finite hx
  obtain ⟨magnitude', hlt, hnearest, htext⟩ := double.fixedText_units_nearest (by decide)
    BinaryFormat.dvd_greatest_double hmagnitude places
  have hdouble : (Numeral.fixed places (roundHalfEven (double.units magnitude * 10 ^ places)
      (2 ^ double.unitExponent))).toDouble = .ofBits magnitude'.toUInt64 := by
    rw [Numeral.toDouble, Numeral.mantissa_fixed, Numeral.length_fraction_fixed, Nat.pow_eq,
      hnearest]
  have hread : Printable.value (fixed places x).value =
      .finite negative (double.units magnitude') (2 ^ double.unitExponent) := by
    rw [fixed, hvalue, Decimal.value]
    cases negative with
    | false => exact (congrArg Printable.value hdouble).trans (Double.value_ofBits hlt)
    | true =>
        exact (congrArg (Printable.value <| - ·) hdouble).trans (Double.value_neg_ofBits hlt)
  rw [hread, hvalue, BinaryValue.text, BinaryValue.text, htext]

end Expression.Decimal

/-! ### Rows -/

namespace Expression

variable {β : Type}

/-- Spelled numbers with a blank between them spell the row of these numbers. -/
lemma rowSpelled_intercalate {decimal : β → Decimal} {spell : β → List Char} {row : List β}
    (h : ∀ x ∈ row, (decimal x).Spelled (spell x)) {b : List Char} (hb : Blanks b) :
    RowSpelled (row.map decimal) (b ++ [' '].intercalate (row.map spell)) := by
  induction row generalizing b with
  | nil => simpa using RowSpelled.nil hb
  | cons x row ih =>
      obtain ⟨hx, hrow⟩ := List.forall_mem_cons.mp h
      cases row with
      | nil => simpa using RowSpelled.cons hb hx (v := []) (by rintro _ ⟨⟩) (.nil (by decide))
      | cons x' row =>
          have hparted : Parted (spell x) ([' '] ++ [' '].intercalate ((x' :: row).map spell)) := by
            rintro _ ⟨⟩
            exact Or.inl rfl
          simpa using RowSpelled.cons hb hx hparted (ih hrow (by decide))

/-- A text that spells a literal has the value of the literal. -/
lemma evaluate_literal {n : ℕ} {rows : List (List Decimal)} {u : List Char} (hpos : 0 < n)
    (hn : ∀ row ∈ rows, row.length = n) (hrows : RowsSpelled rows u) :
    evaluate ('[' :: u ++ [']']) = (Tree.literal rows).value := by
  have ht : (Cursor.ofText ('[' :: u ++ [']'])).Takes ([] ++ ('[' :: u ++ [']']) ++ [])
      ⟨[], ('[' :: u ++ [']']).length⟩ :=
    ⟨by simp [Cursor.ofText], by simp [Cursor.ofText]⟩
  exact Machine.run_line (by decide) (by decide) (.leaf (.literal hpos hn hrows)) ht (Or.inl rfl)

end Expression

/-! ### Matrices -/

namespace DenseMatrix

/-- The text of a matrix as a literal: semicolons in place of the ends of lines, in brackets. -/
def literalText (text : List Char) : List Char :=
  '[' :: text.map (fun c => if c = '\n' then ';' else c) ++ [']']

lemma map_intercalate {β γ : Type} (f : β → γ) (sep : List β) (ls : List (List β)) :
    (sep.intercalate ls).map f = (sep.map f).intercalate (ls.map (List.map f)) := by
  induction ls with
  | nil => rfl
  | cons l ls ih =>
      cases ls with
      | nil => simp
      | cons l' ls => simpa using ih

/-- The text of lines as a literal has a semicolon between the lines. -/
lemma literalText_intercalate {ls : List (List Char)} (h : ∀ l ∈ ls, '\n' ∉ l) :
    literalText (['\n'].intercalate ls) = '[' :: [';'].intercalate ls ++ [']'] := by
  have hline : ∀ l ∈ ls, l.map (fun c => if c = '\n' then ';' else c) = l := by
    intro l hl
    have hchar : ∀ c ∈ l, (if c = '\n' then ';' else c) = c := fun c hc =>
      if_neg (ne_of_mem_of_not_mem hc (h l hl))
    exact (List.map_congr_left hchar).trans (List.map_id' l)
  rw [literalText, map_intercalate, List.map_congr_left hline, List.map_id']
  rfl

/-- The rows of decimal numbers that the lines of a matrix spell. -/
def decimals (places : ℕ) (a : DenseMatrix Float) : List (List Decimal) :=
  a.toRows.map (List.map (Decimal.fixed places))

/-- The rows of the matrix that is read from the lines of a matrix. -/
def readRows (places : ℕ) (a : DenseMatrix Float) : List (List Float) :=
  (a.decimals places).map (List.map Decimal.value)

section ReadBack

variable {a : DenseMatrix Float} (hfinite : ∀ row ∈ a.toRows, ∀ x ∈ row, x.isFinite = true)
  (places : ℕ)

lemma length_of_mem_decimals : ∀ row ∈ a.decimals places, row.length = a.cols := by
  intro row hrow
  obtain ⟨entries, hentries, rfl⟩ := List.mem_map.mp hrow
  rw [List.length_map]
  exact a.cells.length_of_mem_toRows hentries

lemma length_readRows : (a.readRows places).length = a.rows := by
  rw [readRows, decimals, List.length_map, List.length_map, toRows, Grid.length_toRows]

lemma length_of_mem_readRows {row : List Float} (h : row ∈ a.readRows places) :
    row.length = a.cols := by
  obtain ⟨decimals, hdecimals, rfl⟩ := List.mem_map.mp h
  rw [List.length_map]
  exact length_of_mem_decimals places decimals hdecimals

lemma length_flatten_readRows : (a.readRows places).flatten.length = a.rows * a.cols := by
  rw [length_flatten_rows fun _ => length_of_mem_readRows places, length_readRows]

/-- The literal of the decimal numbers is the matrix of their values. -/
lemma value_literal_decimals (hpos : 1 ≤ a.rows) {b : DenseMatrix Float}
    (hb : ofList a.rows a.cols (a.readRows places).flatten = .ok b) :
    (Tree.literal (a.decimals places)).value = .ok b := by
  have hfirst : ((a.readRows places).headD []).length = a.cols := by
    cases hrows : a.readRows places with
    | nil =>
        have hlength := length_readRows (a := a) places
        rw [hrows] at hlength
        exact absurd hpos (hlength ▸ Nat.not_succ_le_zero 0)
    | cons row rows =>
        exact length_of_mem_readRows places (hrows.symm ▸ List.mem_cons_self)
  have heval : (Tree.literal (a.decimals places)).eval = .ok (.matrix b) := by
    rw [Tree.eval, ← readRows, length_readRows, hfirst, hb]
    rfl
  rw [Tree.value, heval]
  rfl

include hfinite

/-- A line of a matrix spells a row of decimal numbers. -/
lemma rowSpelled_line {row : List Float} (hrow : row ∈ a.toRows) :
    RowSpelled (row.map (Decimal.fixed places))
      ([' '].intercalate (row.map fun x => (Printable.value x).text places)) := by
  have hentries := fun x hx => Decimal.spelled_fixed (hfinite row hrow x hx) places
  exact rowSpelled_intercalate hentries (b := []) (by decide)

/-- The lines of a matrix, with semicolons between them, spell its rows of decimal numbers. -/
lemma rowsSpelled_lines (hpos : 1 ≤ a.rows) :
    RowsSpelled (a.decimals places) ([';'].intercalate (a.lines places)) := by
  refine rowsSpelled_intercalate ?_ fun row hrow => rowSpelled_line hfinite places hrow
  rw [← List.length_pos_iff, toRows, Grid.length_toRows]
  exact hpos

lemma newline_notMem_lines : ∀ l ∈ a.lines places, '\n' ∉ l := by
  intro l hl
  obtain ⟨row, hrow, rfl⟩ := List.mem_map.mp hl
  exact (rowSpelled_line hfinite places hrow).newline_notMem

lemma lines_of_toRows_eq {b : DenseMatrix Float} (hb : b.toRows = a.readRows places) :
    b.lines places = a.lines places := by
  rw [lines, lines, hb, readRows, decimals, List.map_map, List.map_map]
  refine List.map_congr_left fun row hrow => ?_
  simp only [Function.comp_apply, List.map_map]
  congr 1
  exact List.map_congr_left fun x hx => Decimal.text_value_fixed (hfinite row hrow x hx) places

end ReadBack

/-- **A matrix that is read back from its text has that text.**  The text of a matrix of finite
doubles, with any number of places, is a literal once its lines are parted by semicolons and put in
brackets. What is read from it has the shape of the matrix, and with as many places the same
text. -/
theorem evaluate_literalText {rows cols : ℕ} {data : List Float} {a : DenseMatrix Float}
    (ha : ofList rows cols data = .ok a) (hfinite : ∀ x ∈ data, x.isFinite = true) (places : ℕ) :
    ∃ b, Expression.evaluate (literalText (a.text places)) = .ok b ∧ b.shape = a.shape ∧
      b.text places = a.text places := by
  obtain ⟨-, hfits, hlist⟩ := of_ofList_eq_ok ha
  have hentries : ∀ row ∈ a.toRows, ∀ x ∈ row, x.isFinite = true := fun row hrow x hx =>
    hfinite x (hlist ▸ List.mem_flatten_of_mem hrow hx)
  have hspelled := rowsSpelled_lines hentries places hfits.1
  obtain ⟨b, hb⟩ : ∃ b, ofList a.rows a.cols (a.readRows places).flatten = .ok b :=
    exists_ofList_eq_ok hfits (length_flatten_readRows places)
  obtain ⟨hshape, -, hread⟩ := of_ofList_eq_ok hb
  obtain ⟨hrows, hcols⟩ := Shape.mk.inj hshape
  have hvalues : b.toRows = a.readRows places := by
    refine toRows_eq_of_flatten hread.symm ?_ fun row hrow => ?_
    · rw [length_readRows, hrows]
    · rw [length_of_mem_readRows places hrow, hcols]
  refine ⟨b, ?_, hshape, ?_⟩
  · rw [text, literalText_intercalate (newline_notMem_lines hentries places),
      evaluate_literal hfits.2.1 (length_of_mem_decimals places) hspelled]
    exact value_literal_decimals places hfits.1 hb
  · rw [text, text, lines_of_toRows_eq hentries places hvalues]

/-- Without places: a negative zero, two numbers halfway between integers, and the least positive
double. -/
theorem evaluate_literalText_of_ties :
    let data : List Float := [.ofBits 0x8000000000000000, .ofBits 0x3fe0000000000000,
      .ofBits 0xbff8000000000000, .ofBits 1]
    (∀ x ∈ data, x.isFinite = true) ∧ ∃ a, ofList 2 2 data = .ok a ∧
      literalText (a.text 0) = "[-0 0;-2 0]".toList ∧
      ∃ b, Expression.evaluate "[-0 0;-2 0]".toList = .ok b ∧ b.shape = ⟨2, 2⟩ ∧
        b.text 0 = "-0 0\n-2 0".toList := by
  intro data
  have hfinite : ∀ x ∈ data, x.isFinite = true := by decide +kernel
  obtain ⟨a, ha⟩ : ∃ a, ofList 2 2 data = .ok a := exists_ofList_eq_ok (by decide) rfl
  have htext : a.text 0 = "-0 0\n-2 0".toList := by
    have h : (text 0 <$> ofList 2 2 data) = .ok "-0 0\n-2 0".toList := by decide +kernel
    rw [ha] at h
    exact Except.ok.inj h
  have hliteral : literalText (a.text 0) = "[-0 0;-2 0]".toList := by
    rw [htext]
    decide
  obtain ⟨b, hb, hshape, hsame⟩ := evaluate_literalText ha hfinite 0
  exact ⟨hfinite, a, ha, hliteral, b, hliteral ▸ hb, hshape.trans (of_ofList_eq_ok ha).1,
    hsame.trans htext⟩

end DenseMatrix

end MatrixReckoner
