import MatrixReckoner.Proofs.Expression.Literal
import MatrixReckoner.Proofs.Grid.Rows

/-!
Literals as they are written: what is read from the rows of a literal, and which texts are read.

* `Entry`, `Row`, `rowsText`, `bracketed`: the numbers of a row with the blanks before them, a row,
  rows with semicolons between them, and the literal with these rows.
* `Entry.Apart`, `Row.Spelled`: two numbers of a row that are read as two, and rows that are read
  as they are written.
* `Row.rowSpelled`, `exists_row_of_rowSpelled`: these rows are those that the scanner of literals
  takes.
* `Cursor.literalFrom_ragged`: the first row of another length than those before it is refused
  where it ends.
* `Scan.literal_bracketed`: the outcome of reading a literal, refusals included.
* `Scan.literal_eq_ok_iff`: what is read as a literal. Numbers of a row may touch
  (`Scan.literal_of_touching_numbers`) where the second one cannot continue the first.
-/

namespace MatrixReckoner

namespace Expression

/-! ### Rows as they are written -/

/-- A number of a row: the blanks before it, what it denotes, and its text. -/
structure Entry where
  blanks : List Char
  number : Decimal
  text : List Char

/-- A row of a literal: its numbers, and the blanks at its end. -/
structure Row where
  entries : List Entry
  blanks : List Char

/-- The number is written in decimal notation, behind blanks. -/
def Entry.Spelled (x : Entry) : Prop :=
  Blanks x.blanks ∧ x.number.Spelled x.text

/-- The number `y` behind the number `x` is another one: there is a blank between them, or `y`
begins with a minus sign, or with a second point. -/
def Entry.Apart (x y : Entry) : Prop :=
  y.blanks ≠ [] ∨ y.text.head? = some '-' ∨ y.text.head? = some '.' ∧ '.' ∈ x.text

namespace Row

/-- The row is made of numbers and blanks, and its numbers are apart. -/
def Spelled (row : Row) : Prop :=
  (∀ x ∈ row.entries, x.Spelled) ∧ Blanks row.blanks ∧ row.entries.IsChain Entry.Apart

/-- The characters of the row. -/
def text (row : Row) : List Char :=
  (row.entries.flatMap fun x => x.blanks ++ x.text) ++ row.blanks

/-- The number of entries. -/
def length (row : Row) : ℕ :=
  row.entries.length

/-- What the entries denote. -/
def numbers (row : Row) : List Decimal :=
  row.entries.map Entry.number

/-- The doubles that the entries denote. -/
def values (row : Row) : List Float :=
  row.numbers.map Decimal.value

end Row

/-- The characters of rows with a semicolon between them. -/
def rowsText (rows : List Row) : List Char :=
  [';'].intercalate (rows.map Row.text)

/-- The characters of the literal with these rows. -/
def bracketed (rows : List Row) : List Char :=
  '[' :: (rowsText rows ++ [']'])

/-! ### Rows that are read -/

lemma exists_cons_of_spelled {d : Decimal} {u : List Char} (h : d.Spelled u) :
    ∃ ch w, u = ch :: w ∧ (ch = '-' ∨ startsNumber ch) := by
  obtain ⟨v, hv, rfl⟩ := h
  obtain ⟨ch, w, rfl, hch⟩ := Cursor.exists_cons_of_numeralSpelled hv
  cases d.negative with
  | false => exact ⟨ch, w, rfl, Or.inr hch⟩
  | true => exact ⟨'-', ch :: w, rfl, Or.inl rfl⟩

/-- Two numbers are apart if the second one does not continue the first one. -/
lemma Entry.apart_iff {x y : Entry} (hy : y.Spelled) (v : List Char) :
    x.Apart y ↔ Parted x.text (y.blanks ++ y.text ++ v) := by
  obtain ⟨b, d, u⟩ := y
  obtain ⟨hb, hd⟩ := hy
  dsimp only [Entry.Apart] at hb hd ⊢
  cases b with
  | cons ch b =>
      have hch : isInlineBlank ch := hb ch List.mem_cons_self
      simp [Parted, hch]
  | nil =>
      obtain ⟨ch, w, rfl, rfl | hstarts⟩ := exists_cons_of_spelled hd
      · simp [Parted, Continues]
      · have hblank := Cursor.isInlineBlank_of_startsNumber hstarts
        have hminus : ch ≠ '-' := by rintro rfl; exact absurd hstarts (by decide)
        rcases Cursor.startsNumber_iff.mp hstarts with hdigit | rfl
        · have hpoint : ch ≠ '.' := by rintro rfl; exact absurd hdigit (by decide)
          simp [Parted, Continues, hblank, hminus, hdigit, hpoint]
        · simp [Parted, Continues, hblank]

/-- A row that is read as it is written spells its numbers. -/
lemma Row.rowSpelled {row : Row} (h : row.Spelled) : RowSpelled row.numbers row.text := by
  obtain ⟨entries, blanks⟩ := row
  obtain ⟨hentries, hblanks, hapart⟩ := h
  dsimp only at hentries hblanks hapart
  induction entries with
  | nil => exact .nil hblanks
  | cons x entries ih =>
      obtain ⟨hx, hentries⟩ := List.forall_mem_cons.mp hentries
      have hparted : Parted x.text (Row.text ⟨entries, blanks⟩) := by
        cases entries with
        | nil => exact fun ch hch => Or.inl (hblanks ch (List.mem_of_mem_head? hch))
        | cons y entries =>
          have hxy := (Entry.apart_iff (hentries y List.mem_cons_self)
            (Row.text ⟨entries, blanks⟩)).mp hapart.rel
          simpa [Row.text] using hxy
      have hspelled := RowSpelled.cons hx.1 hx.2 hparted (ih hentries hapart.tail)
      simpa [Row.text, Row.numbers] using hspelled

lemma Row.spelled_nil {b : List Char} (hb : Blanks b) : Row.Spelled ⟨[], b⟩ :=
  ⟨by simp, hb, .nil⟩

lemma Row.spelled_cons {x : Entry} {entries : List Entry} {b : List Char} (hx : x.Spelled)
    (hapart : ∀ y ∈ entries.head?, x.Apart y) (h : Row.Spelled ⟨entries, b⟩) :
    Row.Spelled ⟨x :: entries, b⟩ :=
  ⟨List.forall_mem_cons.mpr ⟨hx, h.1⟩, h.2.1, List.isChain_cons.mpr ⟨hapart, h.2.2⟩⟩

/-- A text that spells a row is written as one. -/
lemma exists_row_of_rowSpelled {ds : List Decimal} {u : List Char} (h : RowSpelled ds u) :
    ∃ row : Row, row.Spelled ∧ row.numbers = ds ∧ row.text = u := by
  induction h with
  | @nil b hb => exact ⟨⟨[], b⟩, Row.spelled_nil hb, rfl, rfl⟩
  | @cons b u v d ds hb hd hparted hrow ih =>
      obtain ⟨⟨entries, blanks⟩, hspelled, rfl, rfl⟩ := ih
      refine ⟨⟨⟨b, d, u⟩ :: entries, blanks⟩, Row.spelled_cons ⟨hb, hd⟩ ?_ hspelled, rfl, ?_⟩
      · intro y hy
        obtain ⟨entries, rfl⟩ := List.head?_eq_some_iff.mp hy
        refine (Entry.apart_iff (hspelled.1 y List.mem_cons_self)
          (Row.text ⟨entries, blanks⟩)).mpr ?_
        simpa [Row.text] using hparted
      · simp [Row.text]

lemma rowsText_cons (row : Row) {rows : List Row} (h : rows ≠ []) :
    rowsText (row :: rows) = row.text ++ ';' :: rowsText rows := by
  obtain ⟨row', rows, rfl⟩ := List.exists_cons_of_ne_nil h
  simp [rowsText]

/-- Rows that are read as they are written spell their numbers. -/
lemma rowsSpelled_rowsText {rows : List Row} (hne : rows ≠ []) (h : ∀ row ∈ rows, row.Spelled) :
    RowsSpelled (rows.map Row.numbers) (rowsText rows) :=
  rowsSpelled_intercalate hne fun row hrow => Row.rowSpelled (h row hrow)

/-- A text that spells rows is written as rows. -/
lemma exists_rows_of_rowsSpelled {rs : List (List Decimal)} {u : List Char} (h : RowsSpelled rs u) :
    ∃ rows : List Row, (∀ row ∈ rows, row.Spelled) ∧ rows.map Row.numbers = rs ∧
      rowsText rows = u := by
  induction h with
  | last hrow =>
      obtain ⟨row, hspelled, rfl, rfl⟩ := exists_row_of_rowSpelled hrow
      exact ⟨[row], by simpa using hspelled, rfl, by simp [rowsText]⟩
  | cons hrow hrest ih =>
      obtain ⟨row, hspelled, rfl, rfl⟩ := exists_row_of_rowSpelled hrow
      obtain ⟨rows, hrows, rfl, rfl⟩ := ih
      have hne : rows ≠ [] := by
        rintro rfl
        cases hrest
      exact ⟨row :: rows, List.forall_mem_cons.mpr ⟨hspelled, hrows⟩, rfl, rowsText_cons row hne⟩

/-! ### Literals -/

variable {rows : List Row} {n : ℕ}

lemma length_numbers (row : Row) : row.numbers.length = row.length :=
  List.length_map ..

lemma length_values (row : Row) : row.values.length = row.length :=
  (List.length_map ..).trans (length_numbers row)

lemma length_of_mem_values (hn : ∀ row ∈ rows, row.length = n) :
    ∀ values ∈ rows.map Row.values, values.length = n := by
  intro values hvalues
  obtain ⟨row, hrow, rfl⟩ := List.mem_map.mp hvalues
  rw [length_values, hn row hrow]

end Expression

namespace Cursor

open Expression

variable {c c' : Cursor} {rows : List Row} {n start : ℕ} {a : DenseMatrix Float}

/-- A literal with rows of one length is made of their values. -/
lemma literal_rowsText (hne : rows ≠ []) (hspelled : ∀ row ∈ rows, row.Spelled)
    (hn : ∀ row ∈ rows, row.length = n) (ht : c.Takes (rowsText rows ++ [']']) c') :
    c.literal start = (·, c') <$>
      (DenseMatrix.ofList (rows.map Row.values).length n
        (rows.map Row.values).flatten).mapError .matrix := by
  have hnumbers : ∀ ds ∈ rows.map Row.numbers, ds.length = n := by
    intro ds hds
    obtain ⟨row, hrow, rfl⟩ := List.mem_map.mp hds
    rw [length_numbers, hn row hrow]
  rw [literal_eq (rowsSpelled_rowsText hne hspelled) hnumbers ht, List.length_map, List.map_map,
    List.length_map]
  rfl

/-- What is read as a literal is the matrix of the rows that are written. -/
lemma exists_rows_of_literal_eq_ok (h : c.literal start = .ok (a, c')) :
    a.shape.Fits (Element.bytes Float) ∧ ∃ rows : List Row, (∀ row ∈ rows, row.Spelled) ∧
      a.toRows = rows.map Row.values ∧ c.Takes (rowsText rows ++ [']']) c' := by
  obtain ⟨n, rs, u, -, hn, hrs, ht⟩ := exists_of_literal_eq_ok h
  obtain ⟨rows, hspelled, rfl, rfl⟩ := exists_rows_of_rowsSpelled hrs
  have hne : rows ≠ [] := by
    rintro rfl
    cases hrs
  have hlengths : ∀ row ∈ rows, row.length = n := fun row hrow => by
    rw [← length_numbers, hn _ (List.mem_map_of_mem hrow)]
  rw [literal_rowsText hne hspelled hlengths ht, map_eq_ok_iff] at h
  obtain ⟨a', hmatrix, hpair⟩ := h
  cases hpair
  obtain ⟨-, hfits, hrows⟩ := DenseMatrix.of_ofList_flatten_eq_ok (length_of_mem_values hlengths)
    (mapError_eq_ok_iff.mp hmatrix)
  exact ⟨hfits, rows, hspelled, hrows, ht⟩

/-- A row is read up to the character that ends it, and then compared with the first row. -/
lemma literalFrom_row_end {row : Row} {s : LiteralRows} {ch : Char} {d : Cursor}
    (hrow : row.Spelled) (hs : s.row = []) (hch : ch = ';' ∨ ch = ']')
    (ht : c.Takes (row.text ++ [ch]) d) :
    c.literalFrom start s =
      LiteralRows.endRow { s with row := row.values.reverse } (c.column + row.text.length) >>=
        fun s => if ch = ';' then d.literalFrom start s else (·, d) <$> s.matrix := by
  obtain ⟨c₁, ht₁, ht₂⟩ := takes_append_iff.mp ht
  have hend : c₁.rest.head? = some ';' ∨ c₁.rest.head? = some ']' := by
    rw [ht₂.1]
    exact hch.imp (congrArg some) (congrArg some)
  have hvalues : (row.numbers.map Decimal.value).reverse ++ s.row = row.values.reverse := by
    rw [hs, List.append_nil]
    rfl
  rw [literalFrom_row (Row.rowSpelled hrow) ht₁ hend, hvalues, ← ht₁.2, literalFrom_eq]
  rcases hch with rfl | rfl
  · have htoken : c₁.literalToken start = .ok (.rowEnd c₁.column, d) :=
      literalToken_eq_ok_iff.mpr ⟨[';'], .rowEnd (b := []) (by simp [Blanks]), ht₂⟩
    rw [htoken]
    rfl
  · have htoken : c₁.literalToken start = .ok (.close c₁.column, d) :=
      literalToken_eq_ok_iff.mpr ⟨[']'], .close (b := []) (by simp [Blanks]), ht₂⟩
    rw [htoken]
    rfl

/-- The first of several rows is read up to the semicolon behind it. -/
lemma takes_rowsText_cons {row : Row} (hne : rows ≠ []) :
    c.Takes (rowsText (row :: rows) ++ [']']) c' ↔
      ∃ d, c.Takes (row.text ++ [';']) d ∧ d.Takes (rowsText rows ++ [']']) c' := by
  rw [rowsText_cons row hne, ← takes_append_iff]
  simp

/-- A row of another length than those before it is refused where it ends. -/
lemma literalFrom_of_length_ne {behind : List Row} {row : Row} {s : LiteralRows}
    (hrow : row.Spelled) (hne : row.length ≠ n) (hs : s.row = []) (hw : s.width = some n)
    (ht : c.Takes (rowsText (row :: behind) ++ [']']) c') :
    c.literalFrom start s =
      .error (.raggedMatrix s.rows.length n row.length (c.column + row.text.length)) := by
  have hlength : row.values.reverse.length = row.length := by
    rw [List.length_reverse, length_values]
  have hend : ∀ position, LiteralRows.endRow { s with row := row.values.reverse } position =
      .error (.raggedMatrix s.rows.length n row.length position) := by
    intro position
    rw [LiteralRows.endRow, hw, hlength]
    exact if_neg hne
  obtain ⟨ch, d, hch, ht'⟩ : ∃ ch d, (ch = ';' ∨ ch = ']') ∧ c.Takes (row.text ++ [ch]) d := by
    cases behind with
    | nil => exact ⟨']', c', Or.inr rfl, by simpa [rowsText] using ht⟩
    | cons r behind =>
      obtain ⟨d, ht', -⟩ := (takes_rowsText_cons (List.cons_ne_nil r behind)).mp ht
      exact ⟨';', d, Or.inl rfl, ht'⟩
  rw [literalFrom_row_end hrow hs hch ht', hend]
  rfl

/-- A row of the length of those before it is read, if another one is behind it. -/
lemma literalFrom_of_length_eq {row : Row} {s : LiteralRows} {d : Cursor} (hrow : row.Spelled)
    (hn : row.length = n) (hs : s.row = []) (hw : s.width.getD n = n)
    (ht : c.Takes (row.text ++ [';']) d) :
    c.literalFrom start s = d.literalFrom start ⟨some n, row.values :: s.rows, []⟩ := by
  have hlength : row.values.reverse.length = n := by
    rw [List.length_reverse, length_values, hn]
  rw [literalFrom_row_end hrow hs (Or.inl rfl) ht, endRow_eq hlength hw, List.reverse_reverse]
  rfl

/-- The first row of another length than the `n` of the rows before it is refused where it ends. -/
lemma literalFrom_ragged {before behind : List Row} {row : Row} {s : LiteralRows}
    (hspelled : ∀ r ∈ before ++ row :: behind, r.Spelled) (hn : ∀ r ∈ before, r.length = n)
    (hne : row.length ≠ n) (ht : c.Takes (rowsText (before ++ row :: behind) ++ [']']) c')
    (hs : s.row = []) (hw : s.width = some n ∨ s.width = none ∧ before ≠ []) :
    c.literalFrom start s = .error (.raggedMatrix (s.rows.length + before.length) n row.length
      (c.column + (rowsText (before ++ [row])).length)) := by
  induction before generalizing c s with
  | nil =>
      have hw : s.width = some n := hw.resolve_right fun h => h.2 rfl
      have htext : rowsText ([] ++ [row]) = row.text := by simp [rowsText]
      rw [literalFrom_of_length_ne (hspelled row List.mem_cons_self) hne hs hw ht, htext,
        List.length_nil, Nat.add_zero]
  | cons r before ih =>
      obtain ⟨hr, hspelled⟩ := List.forall_mem_cons.mp hspelled
      obtain ⟨hrn, hn⟩ := List.forall_mem_cons.mp hn
      have hwn : s.width.getD n = n := by
        rcases hw with hw | ⟨hw, -⟩ <;> rw [hw] <;> rfl
      obtain ⟨d, ht₁, ht₂⟩ := (takes_rowsText_cons (by simp)).mp ht
      have htext : rowsText (r :: before ++ [row]) = r.text ++ ';' :: rowsText (before ++ [row]) :=
        rowsText_cons r (by simp)
      rw [literalFrom_of_length_eq hr hrn hs hwn ht₁, ih hspelled hn ht₂ rfl (Or.inl rfl), htext,
        ht₁.2]
      simp only [List.length_append, List.length_cons, List.length_nil]
      congr 2 <;> omega

/-- A literal in which a row is not as long as the rows before it is refused where this row ends. -/
lemma literal_ragged {before behind : List Row} {row : Row}
    (hspelled : ∀ r ∈ before ++ row :: behind, r.Spelled) (hn : ∀ r ∈ before, r.length = n)
    (hne : row.length ≠ n) (hbefore : before ≠ [])
    (ht : c.Takes (rowsText (before ++ row :: behind) ++ [']']) c') :
    c.literal start = .error (.raggedMatrix before.length n row.length
      (c.column + (rowsText (before ++ [row])).length)) := by
  rw [literal, literalFrom_ragged hspelled hn hne ht rfl (Or.inr ⟨rfl, hbefore⟩),
    LiteralRows.empty, List.length_nil, Nat.zero_add]

end Cursor

/-! ### Scanned literals -/

namespace Scan

open Expression

variable {stop : Cursor} {text : List Char} {column : ℕ} {a : DenseMatrix Float}

/-- The scanner has an answer exactly if there is one for the place behind the bracket. -/
lemma literal_eq_ok_iff_literal :
    literal ⟨'[' :: text, column⟩ = .ok a stop ↔
      Cursor.literal column ⟨text, column + 1⟩ = .ok (a, stop) := by
  have hagrees := agrees_literal (c := ⟨'[' :: text, column⟩) rfl
  rw [Cursor.bump_eq rfl (by decide)] at hagrees
  generalize literal ⟨'[' :: text, column⟩ = r at *
  generalize Cursor.literal column ⟨text, column + 1⟩ = x at *
  cases hagrees with
  | ok => simp
  | error => simp

/-- The scanner refuses what is refused at the place behind the bracket. -/
lemma exists_literal_eq_error {e : ExpressionError}
    (h : Cursor.literal column ⟨text, column + 1⟩ = .error e) :
    ∃ stop, literal ⟨'[' :: text, column⟩ = .error e stop := by
  have hagrees := agrees_literal (c := ⟨'[' :: text, column⟩) rfl
  rw [Cursor.bump_eq rfl (by decide), h] at hagrees
  generalize literal ⟨'[' :: text, column⟩ = r at *
  cases hagrees with
  | error => exact ⟨_, rfl⟩

/-- The place behind the bracket, and the place behind the literal. -/
lemma takes_bracketed_iff {rows : List Row} :
    Cursor.Takes ⟨'[' :: text, column⟩ (bracketed rows) stop ↔
      Cursor.Takes ⟨text, column + 1⟩ (rowsText rows ++ [']']) stop := by
  simp only [Cursor.Takes, bracketed, List.cons_append, List.cons.injEq, true_and,
    List.length_cons]
  exact and_congr_right fun _ => by rw [Nat.add_right_comm, Nat.add_assoc]

/-- Rows of one length that fits are read as the matrix of their values. -/
lemma exists_literal_eq_ok {rows : List Row} {n : ℕ} (hne : rows ≠ [])
    (hspelled : ∀ row ∈ rows, row.Spelled) (hn : ∀ row ∈ rows, row.length = n)
    (hfits : Shape.Fits (Element.bytes Float) ⟨rows.length, n⟩)
    (ht : Cursor.Takes ⟨'[' :: text, column⟩ (bracketed rows) stop) :
    ∃ a, a.shape = ⟨rows.length, n⟩ ∧ a.toRows = rows.map Row.values ∧
      literal ⟨'[' :: text, column⟩ = .ok a stop := by
  rw [← List.length_map Row.values] at hfits ⊢
  obtain ⟨a, ha, hshape, hrows⟩ :=
    DenseMatrix.exists_ofList_flatten_eq_ok (length_of_mem_values hn) hfits
  refine ⟨a, hshape, hrows, literal_eq_ok_iff_literal.mpr ?_⟩
  rw [Cursor.literal_rowsText hne hspelled hn (takes_bracketed_iff.mp ht), ha]
  rfl

/-- The outcome of reading a literal, for all rows of numbers and blanks in which numbers are apart,
and whatever follows the literal. If there are rows of another length than the first, the first of
them is refused at the character that ends it. Otherwise the result is the matrix of the values, row
after row, and the place behind the bracket, unless there is no matrix of this shape: without
columns, or too large. -/
theorem literal_bracketed (first : Row) (others : List Row)
    (hspelled : ∀ row ∈ first :: others, row.Spelled) (tail : List Char) (column : ℕ) :
    let rows := first :: others
    let place : Cursor := ⟨bracketed rows ++ tail, column⟩
    (∀ before row behind, rows = before ++ row :: behind →
        (∀ r ∈ before, r.length = first.length) → row.length ≠ first.length →
        ∃ stop, literal place = .error (.raggedMatrix before.length first.length row.length
          (column + ('[' :: rowsText (before ++ [row])).length)) stop) ∧
      ((∀ row ∈ rows, row.length = first.length) →
        (¬ Shape.Fits (Element.bytes Float) ⟨rows.length, first.length⟩ →
          ∃ stop, literal place =
            .error (.matrix (.invalidDimension rows.length first.length)) stop) ∧
        (Shape.Fits (Element.bytes Float) ⟨rows.length, first.length⟩ →
          ∃ a, a.shape = ⟨rows.length, first.length⟩ ∧ a.toRows = rows.map Row.values ∧
            literal place = .ok a ⟨tail, column + (bracketed rows).length⟩)) := by
  intro rows place
  replace hspelled : ∀ row ∈ rows, row.Spelled := hspelled
  have hne : rows ≠ [] := List.cons_ne_nil first others
  have hplace : place = ⟨'[' :: (rowsText rows ++ [']'] ++ tail), column⟩ := rfl
  have ht : Cursor.Takes ⟨'[' :: (rowsText rows ++ [']'] ++ tail), column⟩ (bracketed rows)
      ⟨tail, column + (bracketed rows).length⟩ := ⟨rfl, rfl⟩
  rw [hplace]
  refine ⟨fun before row behind heq hbefore hlength => ?_, fun hlengths => ⟨fun hfits => ?_,
    fun hfits => exists_literal_eq_ok hne hspelled hlengths hfits ht⟩⟩
  · -- a row that is not as long as the first one is not the first one
    have hnil : before ≠ [] := by
      rintro rfl
      exact hlength (congrArg Row.length (List.cons.inj heq).1.symm)
    rw [heq] at hspelled ht ⊢
    rw [List.length_cons, Nat.add_comm (List.length _) 1, ← Nat.add_assoc]
    exact exists_literal_eq_error
      (Cursor.literal_ragged hspelled hbefore hlength hnil (takes_bracketed_iff.mp ht))
  · refine exists_literal_eq_error ((Cursor.literal_rowsText hne hspelled hlengths
      (takes_bracketed_iff.mp ht)).trans ?_)
    rw [List.length_map, DenseMatrix.ofList_eq_invalidDimension hfits]
    rfl

/-- Two rows of two numbers, with a blank before the semicolon; a second row with one number less;
and two rows without numbers. -/
theorem literal_bracketed_of_blanks :
    let x : Decimal := ⟨false, ⟨['1'], ['5']⟩⟩
    let y : Decimal := ⟨true, ⟨['2'], []⟩⟩
    (∃ a, a.shape = ⟨2, 2⟩ ∧ a.toRows = [[x.value, y.value], [y.value, x.value]] ∧
        literal ⟨"[1.5 -2 ;-2 1.5]*2".toList, 0⟩ = .ok a ⟨"*2".toList, 16⟩) ∧
      (∃ stop, literal ⟨"[1.5 -2;1.5]*2".toList, 0⟩ = .error (.raggedMatrix 1 2 1 11) stop) ∧
      ∃ stop, literal ⟨"[; ]".toList, 0⟩ = .error (.matrix (.invalidDimension 2 0)) stop := by
  intro x y
  have hx : ∀ {b : List Char}, Blanks b → (Entry.mk b x "1.5".toList).Spelled := fun hb =>
    ⟨hb, _, .point (w := ['1']) (f := ['5']) (by decide) (by decide) (by decide), rfl⟩
  have hy : ∀ {b : List Char}, Blanks b → (Entry.mk b y "-2".toList).Spelled := fun hb =>
    ⟨hb, _, .whole (w := ['2']) (by decide) (by decide), rfl⟩
  have hnil : Blanks [] := by decide
  have hblank : Blanks [' '] := by decide
  have hsingle : Row.Spelled ⟨[⟨[], x, "1.5".toList⟩], []⟩ :=
    Row.spelled_cons (hx hnil) (by simp) (Row.spelled_nil hnil)
  have hyx : Row.Spelled ⟨[⟨[], y, "-2".toList⟩, ⟨[' '], x, "1.5".toList⟩], []⟩ :=
    Row.spelled_cons (hy hnil) (by simp [Entry.Apart])
      (Row.spelled_cons (hx hblank) (by simp) (Row.spelled_nil hnil))
  have hxy : ∀ {b : List Char}, Blanks b →
      Row.Spelled ⟨[⟨[], x, "1.5".toList⟩, ⟨[' '], y, "-2".toList⟩], b⟩ := fun hb =>
    Row.spelled_cons (hx hnil) (by simp [Entry.Apart])
      (Row.spelled_cons (hy hblank) (by simp) (Row.spelled_nil hb))
  have hpair : ∀ {r r' : Row}, r.Spelled → r'.Spelled → ∀ row ∈ [r, r'], row.Spelled :=
    fun hr hr' => List.forall_mem_cons.mpr ⟨hr, List.forall_mem_singleton.mpr hr'⟩
  refine ⟨?_, ?_, ?_⟩
  · have h := (literal_bracketed _ _ (hpair (hxy hblank) hyx) "*2".toList 0).2
    exact (h (by decide)).2 (by decide)
  · have h := (literal_bracketed _ _ (hpair (hxy hnil) hsingle) "*2".toList 0).1
    exact h [_] _ [] rfl (by simp) (by decide)
  · have h := (literal_bracketed _ _ (hpair (Row.spelled_nil hnil) (Row.spelled_nil hblank)) [] 0).2
    exact (h (by decide)).1 (by decide)

/-- What is read as a literal: a matrix that fits is read exactly if its rows are written there,
with numbers in a row that are apart. -/
theorem literal_eq_ok_iff :
    literal ⟨'[' :: text, column⟩ = .ok a stop ↔
      a.shape.Fits (Element.bytes Float) ∧ ∃ rows : List Row, (∀ row ∈ rows, row.Spelled) ∧
        a.toRows = rows.map Row.values ∧
        Cursor.Takes ⟨'[' :: text, column⟩ (bracketed rows) stop := by
  refine ⟨fun h => ?_, ?_⟩
  · obtain ⟨hfits, rows, hspelled, hrows, ht⟩ :=
      Cursor.exists_rows_of_literal_eq_ok (literal_eq_ok_iff_literal.mp h)
    exact ⟨hfits, rows, hspelled, hrows, takes_bracketed_iff.mpr ht⟩
  · rintro ⟨hfits, rows, hspelled, hrows, ht⟩
    have hlength : rows.length = a.rows := by
      rw [← List.length_map Row.values, ← hrows]
      exact a.cells.length_toRows
    have hlengths : ∀ row ∈ rows, row.length = a.cols := by
      intro row hrow
      rw [← length_values]
      refine a.cells.length_of_mem_toRows ?_
      rw [← DenseMatrix.toRows, hrows]
      exact List.mem_map_of_mem hrow
    have hne : rows ≠ [] := by
      rintro rfl
      have hpos : 1 ≤ a.rows := hfits.1
      simp [← hlength] at hpos
    obtain ⟨b, hshape, hrows', hb⟩ :=
      exists_literal_eq_ok hne hspelled hlengths (hlength ▸ hfits) ht
    have hab : a = b := by
      refine DenseMatrix.eq_of_toRows_eq ?_ (hrows.trans hrows'.symm)
      rw [hshape, hlength]
      rfl
    rw [hab]
    exact hb

/-- Three numbers that are read as the entries of a row, without a blank between them. -/
theorem literal_of_touching_numbers :
    let x : Decimal := ⟨false, ⟨['1'], ['5']⟩⟩
    let y : Decimal := ⟨false, ⟨[], ['5']⟩⟩
    let z : Decimal := ⟨true, ⟨['2'], []⟩⟩
    (∃ a, a.shape = ⟨1, 3⟩ ∧ a.toRows = [[x.value, y.value, z.value]] ∧
        literal ⟨"[1.5.5-2]".toList, 0⟩ = .ok a ⟨[], 9⟩) ∧
      "[1.5.5-2]".toList.any isInlineBlank = false := by
  intro x y z
  let row : Row := ⟨[⟨[], x, "1.5".toList⟩, ⟨[], y, ".5".toList⟩, ⟨[], z, "-2".toList⟩], []⟩
  have hnil : Blanks [] := by decide
  have hx : (Entry.mk [] x "1.5".toList).Spelled :=
    ⟨hnil, _, .point (w := ['1']) (f := ['5']) (by decide) (by decide) (by decide), rfl⟩
  have hy : (Entry.mk [] y ".5".toList).Spelled :=
    ⟨hnil, _, .point (w := []) (f := ['5']) (by decide) (by decide) (by decide), rfl⟩
  have hz : (Entry.mk [] z "-2".toList).Spelled :=
    ⟨hnil, _, .whole (w := ['2']) (by decide) (by decide), rfl⟩
  have hrow : row.Spelled :=
    Row.spelled_cons hx (by simp [Entry.Apart]) (Row.spelled_cons hy (by simp [Entry.Apart])
      (Row.spelled_cons hz (by simp) (Row.spelled_nil hnil)))
  have hrows : ∀ r ∈ [row], r.Spelled := List.forall_mem_singleton.mpr hrow
  have hlengths : ∀ r ∈ [row], r.length = 3 := List.forall_mem_singleton.mpr rfl
  exact ⟨exists_literal_eq_ok (by simp) hrows hlengths (by decide) ⟨rfl, rfl⟩, by decide⟩

end Scan

end MatrixReckoner
