import MatrixReckoner.Proofs.Expression.Scanning

/-!
Literals are read exactly from rows of one length.

* `Expression.rowsSpelled_intercalate`: rows with a semicolon between them.
* `Cursor.TokenSpelled`, `Cursor.literalToken_eq_ok_iff`: the longest part of a literal.
* `Cursor.literal_eq`: spelled rows are the matrix of their values.
* `Cursor.exists_of_literal_eq_ok`: what is read as a literal spells rows of one length.
-/

namespace MatrixReckoner

open Expression

/-- Spelled rows with a semicolon between them spell the list of these rows. -/
lemma Expression.rowsSpelled_intercalate {β : Type} {decimals : β → List Decimal}
    {spell : β → List Char} {rows : List β} (hne : rows ≠ [])
    (h : ∀ row ∈ rows, RowSpelled (decimals row) (spell row)) :
    RowsSpelled (rows.map decimals) ([';'].intercalate (rows.map spell)) := by
  induction rows with
  | nil => exact absurd rfl hne
  | cons row rows ih =>
      obtain ⟨hrow, hrows⟩ := List.forall_mem_cons.mp h
      cases rows with
      | nil => simpa using RowsSpelled.last hrow
      | cons row' rows => simpa using RowsSpelled.cons hrow (ih (List.cons_ne_nil _ _) hrows)

namespace Cursor

variable {c c' : Cursor} {u v : List Char}

/-! ### Parts of a literal -/

/-- A sign does not change what continues a number. -/
lemma continues_signText_append_iff {negative : Bool} {ch : Char} :
    Continues (signText negative ++ u) ch ↔ Continues u ch := by
  cases negative <;> simp [Continues, signText]

/-- The parts of a literal, from the column on where the part before ends, and with the characters
behind them. -/
inductive TokenSpelled (column : ℕ) : LiteralToken → List Char → List Char → Prop where
  | entry {b u rest : List Char} {d : Decimal} : Blanks b → d.Spelled u →
      (∀ ch ∈ rest.head?, ¬ Continues u ch) → TokenSpelled column (.entry d.value) (b ++ u) rest
  | rowEnd {b rest : List Char} : Blanks b →
      TokenSpelled column (.rowEnd (column + b.length)) (b ++ [';']) rest
  | close {b rest : List Char} : Blanks b →
      TokenSpelled column (.close (column + b.length)) (b ++ [']']) rest

/-- A decimal number, blanks before it skipped, is the next part of a literal. -/
lemma literalToken_eq_entry {start : ℕ} {b : List Char} {d : Decimal} (hb : Blanks b)
    (hd : d.Spelled u) (ht : c.Takes (b ++ u) c') (hover : ∀ ch ∈ c'.rest.head?, ¬ Continues u ch) :
    c.literalToken start = .ok (.entry d.value, c') := by
  obtain ⟨c₁, ht₁, ht₂⟩ := takes_append_iff.mp ht
  obtain ⟨negative, n⟩ := d
  obtain ⟨v, hn, rfl⟩ := hd
  obtain ⟨ch, w, rfl, hch⟩ := exists_cons_of_numeralSpelled hn
  simp only [continues_signText_append_iff] at hover
  cases negative with
  | false =>
      have hr : c₁.rest = ch :: (w ++ c'.rest) := ht₂.1
      have hskip : c.skipBlanks = c₁ :=
        skipBlanks_eq_of_cons hb ht₁ hr (isInlineBlank_of_startsNumber hch)
      have hread : c₁.signedNumber false c₁.column = .ok ((Decimal.mk false n).value, c') :=
        signedNumber_eq_ok_iff.mpr ⟨n, _, hn, ht₂, hover, rfl⟩
      have hne : ch ≠ '\n' ∧ ch ≠ ';' ∧ ch ≠ ']' ∧ ch ≠ '-' := by
        refine ⟨?_, ?_, ?_, ?_⟩ <;> rintro rfl <;> exact absurd hch (by decide)
      rw [literalToken, hskip]
      dsimp only
      rw [hr]
      simp [hne, hch, hread, Except.map]
  | true =>
      obtain ⟨c₂, ht₂, ht₃⟩ := takes_append_iff.mp ht₂
      obtain ⟨hr, hcol⟩ := takes_singleton_iff.mp ht₂
      have hskip : c.skipBlanks = c₁ := skipBlanks_eq_of_cons hb ht₁ hr rfl
      have hread : c₂.signedNumber true c₁.column = .ok ((Decimal.mk true n).value, c') :=
        signedNumber_eq_ok_iff.mpr ⟨n, _, hn, ht₃, hover, rfl⟩
      have hc₂ : Cursor.mk c₂.rest (c₁.column + 1) = c₂ := by rw [← hcol]
      have hhead : c₂.rest.head?.any startsNumber := by rw [ht₃.1]; exact hch
      rw [literalToken, hskip]
      dsimp only
      rw [hr]
      simp [hc₂, hhead, hread, Except.map]

/-- What is read as a part of a literal spells one. -/
lemma exists_of_literalToken_eq_ok {start : ℕ} {t : LiteralToken}
    (h : c.literalToken start = .ok (t, c')) :
    ∃ u, TokenSpelled c.column t u c'.rest ∧ c.Takes u c' := by
  obtain ⟨b, hb, ht, -⟩ := skipBlanks_eq_iff.mp (rfl : c.skipBlanks = c.skipBlanks)
  rw [literalToken] at h
  generalize c.skipBlanks = c₁ at *
  dsimp only at h
  split at h
  · cases h
  · next ch rest hr =>
    have hstep : c₁.Takes [ch] ⟨rest, c₁.column + 1⟩ := takes_singleton_iff.mpr ⟨hr, rfl⟩
    split at h
    · cases h
    split at h
    · next hch =>
      cases h
      subst hch
      exact ⟨b ++ [';'], ht.2 ▸ .rowEnd hb, ht.append hstep⟩
    split at h
    · next hch =>
      cases h
      subst hch
      exact ⟨b ++ [']'], ht.2 ▸ .close hb, ht.append hstep⟩
    split at h
    · next hch =>
      subst hch
      split at h
      · obtain ⟨⟨x, c₂⟩, hx, heq⟩ := map_eq_ok_iff.mp h
        cases heq
        obtain ⟨n, v, hn, hv, hover, rfl⟩ := signedNumber_eq_ok_iff.mp hx
        exact ⟨b ++ (signText true ++ v), .entry (d := ⟨true, n⟩) hb ⟨v, hn, rfl⟩
          fun ch hch hcont => hover ch hch (continues_signText_append_iff.mp hcont),
          ht.append (hstep.append hv)⟩
      · cases h
    split at h
    · obtain ⟨⟨x, c₂⟩, hx, heq⟩ := map_eq_ok_iff.mp h
      cases heq
      obtain ⟨n, v, hn, hv, hover, rfl⟩ := signedNumber_eq_ok_iff.mp hx
      exact ⟨b ++ v, .entry (d := ⟨false, n⟩) hb ⟨v, hn, rfl⟩ hover, ht.append hv⟩
    · cases h

/-- A spelled part of a literal is read as it. -/
lemma literalToken_eq_of_tokenSpelled {start : ℕ} {t : LiteralToken}
    (hu : TokenSpelled c.column t u c'.rest) (ht : c.Takes u c') :
    c.literalToken start = .ok (t, c') := by
  have key : ∀ {b : List Char} {ch : Char}, Blanks b → isInlineBlank ch = false →
      c.Takes (b ++ [ch]) c' → ∃ c₁, c.skipBlanks = c₁ ∧ c₁.rest = ch :: c'.rest ∧
        c₁.column = c.column + b.length ∧ c' = ⟨c'.rest, c₁.column + 1⟩ := by
    intro b ch hb hch ht
    obtain ⟨c₁, ht₁, ht₂⟩ := takes_append_iff.mp ht
    obtain ⟨hr, hcol⟩ := takes_singleton_iff.mp ht₂
    exact ⟨c₁, skipBlanks_eq_of_cons hb ht₁ hr hch, hr, ht₁.2, by rw [← hcol]⟩
  cases hu with
  | entry hb hd hover => exact literalToken_eq_entry hb hd ht hover
  | rowEnd hb =>
      obtain ⟨c₁, hskip, hr, hcol, hc'⟩ := key hb (by decide) ht
      rw [literalToken, hskip, ← hcol, hc']
      dsimp only
      rw [hr]
      rfl
  | close hb =>
      obtain ⟨c₁, hskip, hr, hcol, hc'⟩ := key hb (by decide) ht
      rw [literalToken, hskip, ← hcol, hc']
      dsimp only
      rw [hr]
      rfl

/-- The next part of a literal is the longest one that stands there. -/
theorem literalToken_eq_ok_iff {start : ℕ} {t : LiteralToken} :
    c.literalToken start = .ok (t, c') ↔
      ∃ u, TokenSpelled c.column t u c'.rest ∧ c.Takes u c' :=
  ⟨exists_of_literalToken_eq_ok, fun ⟨_, hu, ht⟩ => literalToken_eq_of_tokenSpelled hu ht⟩

/-- Blanks before a place do not change the next part of a literal. -/
lemma Takes.literalToken_eq {start : ℕ} {b : List Char} (h : c.Takes b c') (hb : Blanks b) :
    c.literalToken start = c'.literalToken start := by
  rw [literalToken, literalToken, h.skipBlanks_eq hb]

/-- A blank does not continue a number. -/
lemma not_continues_of_isInlineBlank {ch : Char} (h : isInlineBlank ch) : ¬ Continues u ch := by
  intro hcont
  have hstart : startsNumber ch := startsNumber_iff.mpr (hcont.imp_right And.left)
  rw [isInlineBlank_of_startsNumber hstart] at h
  exact Bool.false_ne_true h

/-- A row is read up to the semicolon or bracket behind it, entry by entry. -/
lemma literalFrom_row {start : ℕ} {row : List Decimal} (hrow : RowSpelled row u)
    (ht : c.Takes u c') (hend : c'.rest.head? = some ';' ∨ c'.rest.head? = some ']')
    (s : LiteralRows) :
    c.literalFrom start s =
      c'.literalFrom start { s with row := (row.map Decimal.value).reverse ++ s.row } := by
  induction hrow generalizing c s with
  | nil hb =>
      rw [literalFrom_eq, ht.literalToken_eq hb]
      exact (literalFrom_eq start s c').symm
  | @cons b u v d row hb hd hparted hrow ih =>
      obtain ⟨c₁, ht₁, ht₂⟩ := takes_append_iff.mp ht
      have hover : ∀ ch ∈ c₁.rest.head?, ¬ Continues u ch := by
        intro ch hch
        rw [ht₂.1] at hch
        cases v with
        | nil =>
            rcases hend with hend | hend <;> rw [List.nil_append, hend] at hch <;> cases hch <;>
              simp [Continues]
        | cons ch' v =>
            cases hch
            exact (hparted _ rfl).elim not_continues_of_isInlineBlank id
      rw [literalFrom_eq, literalToken_eq_entry hb hd ht₁ hover]
      refine (ih ht₂ (s.push d.value)).trans ?_
      simp [LiteralRows.push]

lemma endRow_eq {width : Option ℕ} {rows : List (List Float)} {row : List Float} {n : ℕ}
    (hn : row.length = n) (hw : width.getD n = n) (position : ℕ) :
    LiteralRows.endRow ⟨width, rows, row⟩ position = .ok ⟨some n, row.reverse :: rows, []⟩ := by
  subst hn
  simp [LiteralRows.endRow, hw]

/-- Rows of one length are read up to the bracket behind the last, and make up a matrix with the
rows before them. -/
lemma literalFrom_rows {start n : ℕ} {rows : List (List Decimal)} (hrows : RowsSpelled rows u)
    (hn : ∀ row ∈ rows, row.length = n) (ht : c.Takes (u ++ [']']) c') {s : LiteralRows}
    (hrow : s.row = []) (hw : s.width.getD n = n) :
    c.literalFrom start s = (·, c') <$> LiteralRows.matrix
      ⟨some n, (rows.map (List.map Decimal.value)).reverse ++ s.rows, []⟩ := by
  induction hrows generalizing c s with
  | @last u row hu =>
      obtain ⟨c₁, ht₁, ht₂⟩ := takes_append_iff.mp ht
      have htoken : c₁.literalToken start = .ok (.close c₁.column, c') :=
        literalToken_eq_ok_iff.mpr ⟨[']'], .close (b := []) (by simp [Blanks]), ht₂⟩
      rw [literalFrom_row hu ht₁ (Or.inr (by rw [ht₂.1]; rfl)), literalFrom_eq, htoken]
      dsimp only [bind, Except.bind]
      rw [endRow_eq (n := n) (by simpa [hrow] using hn) hw]
      simp [hrow]
  | @cons u v row rows hu hrows ih =>
      rw [List.append_assoc] at ht
      obtain ⟨c₁, ht₁, ht₂⟩ := takes_append_iff.mp ht
      obtain ⟨c₂, ht₂, ht₃⟩ := takes_append_iff (u := [';']).mp ht₂
      have htoken : c₁.literalToken start = .ok (.rowEnd c₁.column, c₂) :=
        literalToken_eq_ok_iff.mpr ⟨[';'], .rowEnd (b := []) (by simp [Blanks]), ht₂⟩
      rw [literalFrom_row hu ht₁ (Or.inl (by rw [ht₂.1]; rfl)), literalFrom_eq, htoken]
      dsimp only [bind, Except.bind]
      rw [endRow_eq (n := n) (by simpa [hrow] using hn row (by simp)) hw]
      refine (ih (fun r hr => hn r (by simp [hr])) ht₃ rfl rfl).trans ?_
      simp [hrow]

/-- A literal with rows of one length is the matrix of their values. -/
theorem literal_eq {start n : ℕ} {rows : List (List Decimal)} (hrows : RowsSpelled rows u)
    (hn : ∀ row ∈ rows, row.length = n) (ht : c.Takes (u ++ [']']) c') :
    c.literal start = (·, c') <$> (DenseMatrix.ofList rows.length n
      (rows.map (List.map Decimal.value)).flatten).mapError .matrix := by
  rw [literal, literalFrom_rows hrows hn ht rfl rfl]
  simp [LiteralRows.matrix, LiteralRows.empty]

/-- An entry before the first row is spelled before it. -/
lemma rowsSpelled_cons_entry {b rest : List Char} {d : Decimal} {row : List Decimal}
    {rows : List (List Decimal)} (h : RowsSpelled (row :: rows) v) (hb : Blanks b)
    (hd : d.Spelled u) (hover : ∀ ch ∈ (v ++ rest).head?, ¬ Continues u ch) :
    RowsSpelled ((d :: row) :: rows) (b ++ u ++ v) := by
  have hparted : ∀ {w w' : List Char}, v = w ++ w' → Parted u w := by
    rintro w w' rfl ch hch
    refine Or.inr (hover ch ?_)
    cases w with
    | nil => cases hch
    | cons ch' w => exact hch
  cases h with
  | last hrow => exact .last (.cons hb hd (hparted (List.append_nil v).symm) hrow)
  | @cons v₁ v₂ _ _ hrow hrows =>
      rw [← List.append_assoc]
      exact .cons (.cons hb hd (hparted rfl) hrow) hrows

lemma endRow_eq_ok {s s' : LiteralRows} {position : ℕ} (h : s.endRow position = .ok s') :
    s'.row = [] ∧ ∃ n, s'.width = some n ∧ s.row.length = n ∧ s.width.getD n = n := by
  rw [LiteralRows.endRow] at h
  split at h
  · next hn =>
    cases h
    refine ⟨rfl, _, rfl, hn, ?_⟩
    cases hw : s.width <;> simp
  · cases h

lemma pos_of_matrix_eq_ok {s : LiteralRows} {a : DenseMatrix Float} (h : s.matrix = .ok a) :
    0 < s.width.getD 0 := by
  rw [LiteralRows.matrix, mapError_eq_ok_iff, DenseMatrix.ofList] at h
  obtain ⟨_, hshape, _⟩ := bind_eq_ok_iff.mp h
  rw [DenseMatrix.checkShape] at hshape
  split at hshape
  · next hfits => exact hfits.2.1
  · cases hshape

/-- What is read as the rest of a literal, from the middle of a row on, spells the rest of the row
and further rows, up to the bracket. All rows are of one length. -/
lemma exists_of_literalFrom_eq_ok {start : ℕ} {s : LiteralRows} {a : DenseMatrix Float}
    (h : c.literalFrom start s = .ok (a, c')) :
    ∃ n row rows u, RowsSpelled (row :: rows) u ∧ c.Takes (u ++ [']']) c' ∧ 0 < n ∧
      s.row.length + row.length = n ∧ s.width.getD n = n ∧ ∀ r ∈ rows, r.length = n := by
  fun_induction literalFrom start s c with
  | case1 => cases h
  | case2 s c x behind htoken ih =>
      obtain ⟨u, hu, ht⟩ := literalToken_eq_ok_iff.mp htoken
      obtain ⟨n, row, rows, v, hv, ht', hpos, hlen, hw, hrows⟩ := ih h
      cases hu with
      | @entry b u _ d hb hd hover =>
          rw [ht'.1, List.append_assoc] at hover
          refine ⟨n, d :: row, rows, b ++ u ++ v, rowsSpelled_cons_entry hv hb hd hover, ?_, hpos,
            ?_, hw, hrows⟩
          · rw [List.append_assoc]
            exact ht.append ht'
          · rw [← hlen]
            simp only [LiteralRows.push, List.length_cons]
            omega
  | case3 => cases h
  | case4 s c position behind htoken s' hend ih =>
      obtain ⟨u, hu, ht⟩ := literalToken_eq_ok_iff.mp htoken
      obtain ⟨hnil, m, hm, hlen', hw'⟩ := endRow_eq_ok hend
      obtain ⟨n, row, rows, v, hv, ht', hpos, hlen, hw, hrows⟩ := ih h
      obtain rfl : m = n := by simpa [hm] using hw
      cases hu with
      | @rowEnd b _ hb =>
          refine ⟨m, [], row :: rows, b ++ ';' :: v, .cons (.nil hb) hv, ?_, hpos, hlen', hw', ?_⟩
          · simpa using ht.append ht'
          · intro r hr
            rcases List.mem_cons.mp hr with rfl | hr
            · simpa [hnil] using hlen
            · exact hrows r hr
  | case5 s c position behind htoken =>
      obtain ⟨u, hu, ht⟩ := literalToken_eq_ok_iff.mp htoken
      obtain ⟨s', hend, h⟩ := bind_eq_ok_iff.mp h
      obtain ⟨a', hmatrix, h⟩ := bind_eq_ok_iff.mp h
      cases h
      obtain ⟨-, n, hn, hlen, hw⟩ := endRow_eq_ok hend
      have hpos := pos_of_matrix_eq_ok hmatrix
      rw [hn] at hpos
      cases hu with
      | close hb => exact ⟨n, [], [], _, .last (.nil hb), ht, hpos, hlen, hw, by simp⟩

/-- What is read as a literal spells rows of one length, which is not zero. -/
theorem exists_of_literal_eq_ok {start : ℕ} {a : DenseMatrix Float}
    (h : c.literal start = .ok (a, c')) :
    ∃ n rows u, 0 < n ∧ (∀ row ∈ rows, row.length = n) ∧ RowsSpelled rows u ∧
      c.Takes (u ++ [']']) c' := by
  obtain ⟨n, row, rows, u, hu, ht, hpos, hlen, -, hrows⟩ := exists_of_literalFrom_eq_ok h
  refine ⟨n, row :: rows, u, hpos, fun r hr => ?_, hu, ht⟩
  rcases List.mem_cons.mp hr with rfl | hr
  · simpa [LiteralRows.empty] using hlen
  · exact hrows r hr

end Cursor

end MatrixReckoner
