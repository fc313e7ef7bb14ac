import MatrixReckoner.Proofs.Expression.Literal
import MatrixReckoner.Proofs.Expression.Nesting
import MatrixReckoner.Proofs.Expression.OnLine

/-!
Errors point at the character that causes them, and parentheses are reported that have no partner.

* `ExpressionError.Blames`: the characters that an error may point at.
* `ExpressionError.Explained`: what a line says about an error.
* `Cursor.Within`: the places of a line.
* `Cursor.explained_literal`: errors of literals are explained.
* `Machine.HasRead`: the line up to the place of a machine is read, and the parentheses that wait
  are those that it leaves open.
* `Machine.HasRead.step`, `Machine.HasRead.finish`: tokens keep it, and errors are explained.
* `Expression.culprit_of_evaluate`, `Expression.unpaired_of_evaluate`: the errors of a text.
-/

namespace MatrixReckoner

open Expression

/-! ### Culprits -/

namespace ExpressionError

/-- The characters that an error may point at. -/
def Blames : ExpressionError → Char → Prop
  | raggedMatrix .., ch => ch = ';' ∨ ch = ']'
  | unterminatedMatrix _, ch => ch = '['
  | unexpectedCharacter ch' _, ch => ch = ch'
  | missingOperator _, ch => ch ∈ ['[', 'E', 'I', '('] ∨ ch.isDigit ∨ ch = '.'
  | missingOperand _, ch => ch ∈ ['+', '-', '*', ')']
  | missingScalar _, ch => ch = '-' ∨ ch = '.'
  | missingOrder _, ch => ch = 'E' ∨ ch = 'I'
  | unmatchedParen _, ch => ch = '(' ∨ ch = ')'
  | invalidPower _, ch | invalidExponent _, ch => ch = '^'
  | matrix _, _ | incompatibleOperands _, _ | insufficientOperands, _ | scalarResult, _ => False

/-- Whether the error is a parenthesis without a partner. -/
def isUnmatchedParen : ExpressionError → Bool
  | unmatchedParen _ => true
  | _ => false

/-- What the line `l` says about an error: it points at a character that it blames, or an operand is
missing at the end; an unmatched parenthesis has no partner, and where the value is a number, every
one has. -/
inductive Explained (l : List Char) : ExpressionError → Prop where
  | operational {e : ExpressionError} : e.Operational → Explained l e
  | culprit {e : ExpressionError} {position : ℕ} {ch : Char} : e.position? = some position →
      l[position]? = some ch → e.Blames ch → e.isUnmatchedParen = false → Explained l e
  | missingOperand : Explained l (.missingOperand l.length)
  | unmatchedParen {position : ℕ} : Unpaired l position → Explained l (.unmatchedParen position)
  | scalarResult : Paired l → Explained l .scalarResult

lemma Explained.exists_culprit {l : List Char} {e : ExpressionError} {position : ℕ}
    (h : Explained l e) (hposition : e.position? = some position) :
    (∃ ch, l[position]? = some ch ∧ e.Blames ch) ∨
      position = l.length ∧ e = .missingOperand position := by
  cases h with
  | operational he => cases he.1.symm.trans hposition
  | culprit hp hget hblames =>
      obtain rfl := Option.some.inj (hp.symm.trans hposition)
      exact Or.inl ⟨_, hget, hblames⟩
  | missingOperand =>
      cases hposition
      exact Or.inr ⟨rfl, rfl⟩
  | unmatchedParen hunpaired =>
      cases hposition
      rcases hunpaired with ⟨hget, -⟩ | ⟨hget, -⟩
      · exact Or.inl ⟨_, hget, Or.inr rfl⟩
      · exact Or.inl ⟨_, hget, Or.inl rfl⟩
  | scalarResult => cases hposition

end ExpressionError

open ExpressionError (Explained)

variable {l u : List Char} {ch : Char} {rest : List Char}

/-- Parentheses are foreign to the texts of leaves and exponents. -/
lemma paired_of_foreign (h : ∀ {ch}, Foreign ch → ch ∉ u) : Paired u :=
  paired_of_notMem (h (by decide)) (h (by decide))

/-- A part of a literal that ends a row is a semicolon or the closing bracket, and names its
position on the line. -/
def LiteralToken.EndsAt (l : List Char) : LiteralToken → Prop
  | .entry _ => True
  | .rowEnd position | .close position => l[position]? = some ';' ∨ l[position]? = some ']'

namespace Cursor

/-! ### Places of a line -/

/-- The place is on the line `l`. -/
def Within (l : List Char) (c : Cursor) : Prop :=
  ∃ u, (ofText l).Takes u c

variable {c c' : Cursor}

lemma Within.takes (h : c.Within l) (ht : c.Takes u c') : c'.Within l :=
  h.imp' (· ++ u) fun _ h => h.append ht

lemma Within.skipBlanks (h : c.Within l) : c.skipBlanks.Within l := by
  obtain ⟨b, -, ht, -⟩ := skipBlanks_eq_iff.mp (rfl : c.skipBlanks = c.skipBlanks)
  exact h.takes ht

/-- The character at a place has the position that is the column. -/
lemma Within.getElem?_column (h : c.Within l) (hr : c.rest = ch :: rest) :
    l[c.column]? = some ch := by
  obtain ⟨u, htext, hcolumn⟩ := h
  have hl : l = u ++ c.rest := htext
  have hlength : c.column = u.length := hcolumn.trans (Nat.zero_add _)
  rw [hl, hr, hlength]
  simp

lemma Within.column_eq (h : c.Within l) (hr : c.rest = []) : c.column = l.length := by
  obtain ⟨u, htext, hcolumn⟩ := h
  have hl : l = u ++ c.rest := htext
  rw [hl, hr, List.append_nil]
  exact hcolumn.trans (Nat.zero_add _)

/-- An error at a place is explained if it blames the character there. -/
lemma Within.explained {e : ExpressionError} (h : c.Within l) (hr : c.rest = ch :: rest)
    (he : e.position? = some c.column) (hblames : e.Blames ch)
    (hne : e.isUnmatchedParen = false) : Explained l e :=
  .culprit he (h.getElem?_column hr) hblames hne

/-! ### Numbers and literals -/

/-- Only a point that no digit follows begins a number without a value. -/
lemma meets_signedNumber (c : Cursor) (negative : Bool) (start : ℕ) :
    Meets (fun e => e = .missingScalar start ∧ ∀ ch ∈ c.rest.head?, ch.isDigit = false)
      (fun p => ∃ u, Paired u ∧ c.Takes u p.2) (c.signedNumber negative start) := by
  cases hread : c.signedNumber negative start with
  | ok p =>
      obtain ⟨n, u, hn, ht, -, -⟩ := signedNumber_eq_ok_iff.mp hread
      exact ⟨u, paired_of_foreign fun hch => hn.notMem hch, ht⟩
  | error e =>
      obtain ⟨⟨n, c'⟩, hn⟩ : ∃ p, c.numeral = p := ⟨_, rfl⟩
      rw [signedNumber, hn] at hread
      dsimp only at hread
      split at hread
      · cases hread
      · next hnone =>
        cases hread
        refine ⟨rfl, fun ch hch => ?_⟩
        have hempty : n.whole = [] ∧ n.fraction = [] := by
          by_contra hne
          cases hnone.symm.trans (toDouble?_eq_some_iff.mpr ⟨hne, rfl⟩)
        obtain ⟨-, -, ⟨ht, -⟩ | ⟨-, ht, hnext⟩⟩ := digits_of_numeral_eq hn
        · rw [ht.1, hempty.1, hempty.2] at hch
          cases hch
          rfl
        · rw [ht.1, hempty.1] at hch
          exact (hnext ch hch).1

/-- A number without a sign that has no value is blamed on the point that it begins with. -/
lemma Within.explained_unsigned (h : c.Within l) (hr : c.rest = ch :: rest)
    (hstarts : startsNumber ch) :
    Meets (Explained l) (fun p => ∃ u, Paired u ∧ c.Takes u p.2)
      (c.signedNumber false c.column) := by
  refine (meets_signedNumber c false c.column).mono ?_ fun _ => id
  rintro _ ⟨rfl, hdigit⟩
  have hch : ch = '.' := by
    have := hdigit ch (by rw [hr]; rfl)
    simpa [startsNumber, this] using hstarts
  exact h.explained hr rfl (Or.inr hch) rfl

/-- A number with a sign that has no value is blamed on the sign. -/
lemma Within.explained_signed (h : c.Within l) (hr : c.rest = '-' :: rest) :
    Meets (Explained l) (fun p => ∃ u, Paired u ∧ Cursor.Takes ⟨rest, c.column + 1⟩ u p.2)
      (Cursor.signedNumber ⟨rest, c.column + 1⟩ true c.column) := by
  refine (meets_signedNumber _ true c.column).mono ?_ fun _ => id
  rintro _ ⟨rfl, -⟩
  exact h.explained hr rfl (Or.inl rfl) rfl

/-- The next part of a literal whose opening bracket stands at `start`: no part is blamed on a
character but its first one, and a literal without an end is blamed on its bracket. -/
lemma Within.explained_literalToken {start : ℕ} (h : c.Within l) (hstart : l[start]? = some '[') :
    Meets (Explained l) (fun p => p.1.EndsAt l ∧ p.2.Within l) (c.literalToken start) := by
  have hunclosed : Explained l (.unterminatedMatrix start) := .culprit rfl hstart rfl rfl
  have hc := h.skipBlanks
  unfold literalToken
  generalize c.skipBlanks = c at *
  dsimp only
  split
  · exact hunclosed
  · next ch rest hr =>
    have hget := hc.getElem?_column hr
    have hafter : Cursor.Within l ⟨rest, c.column + 1⟩ :=
      hc.takes (takes_singleton_iff.mpr ⟨hr, rfl⟩)
    split_ifs with _ hrow hclose hminus _ hnumber
    · exact hunclosed
    · exact ⟨Or.inl (hrow ▸ hget), hafter⟩
    · exact ⟨Or.inr (hclose ▸ hget), hafter⟩
    · subst hminus
      refine ((hc.explained_signed hr).mono (fun _ => id) ?_).map
      rintro ⟨x, after⟩ ⟨u, -, ht⟩
      exact ⟨trivial, hafter.takes ht⟩
    · exact .culprit rfl hget (Or.inl hminus) rfl
    · refine ((hc.explained_unsigned hr hnumber).mono (fun _ => id) ?_).map
      rintro ⟨x, after⟩ ⟨u, -, ht⟩
      exact ⟨trivial, hc.takes ht⟩
    · exact .culprit rfl hget rfl rfl

lemma explained_endRow (s : LiteralRows) {position : ℕ}
    (h : l[position]? = some ';' ∨ l[position]? = some ']') :
    Meets (Explained l) (fun _ => True) (s.endRow position) := by
  unfold LiteralRows.endRow
  dsimp only
  split
  · trivial
  · rcases h with h | h
    · exact .culprit rfl h (Or.inl rfl) rfl
    · exact .culprit rfl h (Or.inr rfl) rfl

lemma explained_mapError {α : Type} (l : List Char) (x : Except MatrixError α) :
    Meets (Explained l) (fun _ => True) (x.mapError .matrix) :=
  meets_mapError (fun _ => .operational ⟨rfl, nofun⟩) x

lemma Within.explained_literalFrom {start : ℕ} (s : LiteralRows) (h : c.Within l)
    (hstart : l[start]? = some '[') :
    Meets (Explained l) (fun _ => True) (c.literalFrom start s) := by
  fun_induction literalFrom start s c with
  | case1 s c e token => exact (h.explained_literalToken hstart).of_eq_error token
  | case2 s c x after token ih =>
    exact ih ((h.explained_literalToken hstart).of_eq_ok token).2
  | case3 s c position after token e row =>
    obtain ⟨hends, -⟩ := (h.explained_literalToken hstart).of_eq_ok token
    exact (explained_endRow s hends).of_eq_error row
  | case4 s c position after token s' row ih =>
    exact ih ((h.explained_literalToken hstart).of_eq_ok token).2
  | case5 s c position after token =>
    obtain ⟨hends, -⟩ := (h.explained_literalToken hstart).of_eq_ok token
    exact (explained_endRow s hends).bind fun s _ =>
      (explained_mapError l _).bind fun _ _ => trivial

/-- Errors of a literal are explained by the line, and its text has no parentheses. -/
theorem Within.explained_literal {start : ℕ} (h : c.Within l) (hstart : l[start]? = some '[') :
    Meets (Explained l) (fun p => ∃ u, Paired u ∧ c.Takes u p.2) (c.literal start) := by
  have herror := h.explained_literalFrom .empty hstart
  cases hread : c.literal start with
  | error e => exact herror.of_eq_error hread
  | ok p =>
      obtain ⟨a, c'⟩ := p
      obtain ⟨n, rows, u, -, -, hrows, ht⟩ := exists_of_literal_eq_ok hread
      refine ⟨u ++ [']'], .append ?_ (by decide), ht⟩
      exact paired_of_foreign fun hch => hrows.notMem hch

end Cursor

/-! ### Tokens -/

namespace Machine

/-- The line up to the place of the machine is read, and its open parentheses are those that
wait. -/
def HasRead (l : List Char) (s : Machine) : Prop :=
  ∃ u, (Cursor.ofText l).Takes u s.cursor ∧ Opened (Stacks.opens s.stack.pending) u

/-- The exponent behind the sign of a power at `position`. -/
lemma explained_exponent {position : ℕ} (c : Cursor) (a : DenseMatrix Float)
    (h : l[position]? = some '^') :
    Meets (Explained l) (fun p => ∃ u, Paired u ∧ c.Takes u p.2) (exponent position c a) := by
  cases hread : exponent position c a with
  | ok p =>
      obtain ⟨a', c'⟩ := p
      obtain ⟨b, e, w, hb, he, ht⟩ := exists_of_exponent_eq_ok hread
      refine ⟨b ++ w, .append ?_ ?_, ht⟩
      · exact paired_of_foreign fun hch => hb.notMem hch
      · exact paired_of_foreign fun hch => Exponent.notMem hch he
  | error e =>
      rw [exponent] at hread
      split at hread
      · cases hread
      · split at hread
        · cases hread
          exact .culprit rfl h rfl rfl
        · exact (Meets.map (Q := fun _ => True) (Cursor.explained_mapError l _)).of_eq_error hread

lemma hasRead_start (l : List Char) : HasRead l (.start (.ofText l)) :=
  ⟨[], .refl _, .nil rfl⟩

namespace HasRead

variable {s s' : Machine} {after : Cursor}

lemma within (h : s.HasRead l) : s.cursor.Within l :=
  h.imp fun _ => And.left

/-- A text without parentheses leaves the groups as they are. -/
lemma paired (h : s.HasRead l) (ht : s.cursor.Takes u s'.cursor) (hu : Paired u)
    (hopens : Stacks.opens s'.stack.pending = Stacks.opens s.stack.pending) : s'.HasRead l := by
  obtain ⟨v, hv, hopened⟩ := h
  exact ⟨v ++ u, hv.append ht, hopens ▸ hopened.append hu⟩

lemma skipBlanks (h : s.HasRead l) : s.skipBlanks.HasRead l := by
  obtain ⟨b, hb, ht, -⟩ := Cursor.skipBlanks_eq_iff.mp (rfl : s.cursor.skipBlanks = _)
  exact h.paired ht (paired_of_foreign fun hch => hb.notMem hch) rfl

/-- Where an operand begins behind a complete one, an operator is missing before it. -/
lemma expectOperand (h : s.HasRead l) (hr : s.cursor.rest = ch :: rest)
    (hch : ch ∈ ['[', 'E', 'I', '('] ∨ ch.isDigit ∨ ch = '.') :
    Meets (Explained l) (fun _ => True) s.expectOperand := by
  unfold Machine.expectOperand
  split
  · exact h.within.explained hr rfl hch rfl
  · trivial

/-- Where an operator or a closing parenthesis stands behind no operand, one is missing. -/
lemma expectOperandEnd (h : s.HasRead l) (hr : s.cursor.rest = ch :: rest)
    (hch : ch ∈ ['+', '-', '*', ')']) :
    Meets (Explained l) (fun _ => True) s.expectOperandEnd := by
  unfold Machine.expectOperandEnd
  split
  · trivial
  · exact h.within.explained hr rfl hch rfl

lemma literal (h : s.HasRead l) (ht : s.cursor.Takes ['['] after) :
    Meets (Explained l) (HasRead l) (s.literal after) := by
  have hstart : l[s.cursor.column]? = some '[' := h.within.getElem?_column ht.1
  refine (h.expectOperand ht.1 (by decide)).bind fun _ _ => ?_
  refine ((h.within.takes ht).explained_literal hstart).bind ?_
  rintro ⟨a, c⟩ ⟨u, hu, ht'⟩
  exact h.paired (ht.append ht') (.append (by decide) hu) rfl

lemma identity (h : s.HasRead l) (hch : ch = 'E' ∨ ch = 'I') (ht : s.cursor.Takes [ch] after) :
    Meets (Explained l) (HasRead l) (s.identity after) := by
  refine (h.expectOperand ht.1 (by rcases hch with rfl | rfl <;> decide)).bind fun _ _ => ?_
  split
  · exact h.within.explained ht.1 rfl hch rfl
  · next n c hread =>
    obtain ⟨w, hw, -, ht', -⟩ := Cursor.order_eq_some_iff.mp hread
    refine (Cursor.explained_mapError l _).bind fun a _ => ?_
    refine h.paired (ht.append ht') (.append ?_ ?_) rfl
    · rcases hch with rfl | rfl <;> decide
    · exact paired_of_foreign fun hch => hw.notMem hch

lemma openGroup (h : s.HasRead l) (ht : s.cursor.Takes ['('] after) :
    Meets (Explained l) (HasRead l) (s.openGroup after) := by
  refine (h.expectOperand ht.1 (by decide)).bind fun _ _ => ?_
  obtain ⟨v, hv, hopened⟩ := h
  have hcolumn : s.cursor.column = v.length := hv.2.trans (Nat.zero_add _)
  refine ⟨v ++ ['('], hv.append ht, ?_⟩
  change Opened (s.cursor.column :: Stacks.opens s.stack.pending) _
  rw [hcolumn]
  exact hopened.openGroup

lemma closeGroup (h : s.HasRead l) (ht : s.cursor.Takes [')'] after) :
    Meets (Explained l) (HasRead l) (s.closeGroup after) := by
  refine (h.expectOperandEnd ht.1 (by decide)).bind fun _ _ => ?_
  obtain ⟨v, hv, hopened⟩ := h
  have hcolumn : s.cursor.column = v.length := hv.2.trans (Nat.zero_add _)
  refine ((Stacks.opens_closeGroup s.stack s.cursor.column).mono ?_ fun _ => id).bind ?_
  · rintro e (he | ⟨rfl, hnone⟩)
    · exact .operational he
    · rw [hnone] at hopened
      have hl : l = v ++ ')' :: after.rest := hv.1.trans (congrArg (v ++ ·) ht.1)
      rw [hcolumn, hl]
      exact .unmatchedParen (hopened.unpaired_close _)
  · rintro stack ⟨p, hp⟩
    rw [hp] at hopened
    exact ⟨v ++ [')'], hv.append ht, hopened.closeGroup⟩

lemma power (h : s.HasRead l) (ht : s.cursor.Takes ['^'] after) :
    Meets (Explained l) (HasRead l) (s.power after) := by
  unfold Machine.power
  split
  · refine (explained_exponent after _ (h.within.getElem?_column ht.1)).bind ?_
    rintro ⟨a, c⟩ ⟨u, hu, ht'⟩
    exact h.paired (ht.append ht') (.append (by decide) hu) rfl
  · exact h.within.explained ht.1 rfl rfl rfl

lemma number (h : s.HasRead l) (hr : s.cursor.rest = ch :: rest) (hstarts : startsNumber ch) :
    Meets (Explained l) (HasRead l) s.number := by
  refine (h.expectOperand hr (Or.inr (Cursor.startsNumber_iff.mp hstarts))).bind fun _ _ => ?_
  refine (h.within.explained_unsigned hr hstarts).bind ?_
  rintro ⟨x, c⟩ ⟨u, hu, ht⟩
  exact h.paired ht hu rfl

lemma negative (h : s.HasRead l) (hr : s.cursor.rest = '-' :: rest) :
    Meets (Explained l) (HasRead l) (s.negative ⟨rest, s.cursor.column + 1⟩) := by
  unfold Machine.negative
  split
  · refine (h.within.explained_signed hr).bind ?_
    rintro ⟨x, c⟩ ⟨u, hu, ht⟩
    have hsign : s.cursor.Takes ['-'] ⟨rest, s.cursor.column + 1⟩ :=
      Cursor.takes_singleton_iff.mpr ⟨hr, rfl⟩
    exact h.paired (hsign.append ht) (.append (by decide) hu) rfl
  · exact h.within.explained hr rfl (show '-' ∈ ['+', '-', '*', ')'] by decide) rfl

lemma operator (h : s.HasRead l) (op : Operator) (ht : s.cursor.Takes [op.symbol] after) :
    Meets (Explained l) (HasRead l) (s.operator op after) := by
  refine (h.expectOperandEnd ht.1 (by cases op <;> decide)).bind fun _ _ => ?_
  refine ((Stacks.opens_pushOperator s.stack op).mono (fun _ => .operational) fun _ => id).bind ?_
  intro stack hstack
  exact h.paired ht (by cases op <;> decide) hstack

/-- **A token either is read, or its refusal is explained by the line.** -/
theorem step (h : s.HasRead l) (hr : s.cursor.rest = ch :: rest) :
    Meets (Explained l) (HasRead l) (s.step ch ⟨rest, s.cursor.column + 1⟩) := by
  have ht : s.cursor.Takes [ch] ⟨rest, s.cursor.column + 1⟩ :=
    Cursor.takes_singleton_iff.mpr ⟨hr, rfl⟩
  unfold Machine.step
  split_ifs with hopen hletter hparen hclose hcaret hminus hnumber
  · exact h.literal (hopen ▸ ht)
  · exact h.identity hletter ht
  · exact h.openGroup (hparen ▸ ht)
  · exact h.closeGroup (hclose ▸ ht)
  · exact h.power (hcaret ▸ ht)
  · exact h.negative (hminus.1 ▸ hr)
  · exact h.number hr hnumber
  · split
    · next op hop =>
      obtain rfl := Operator.ofChar?_eq_some_iff.mp hop
      exact h.operator op ht
    · exact h.within.explained hr rfl rfl rfl

/-- At the end of the line its parentheses are paired, or a refusal is explained by the line. -/
theorem finish (h : s.HasRead l) (hr : s.cursor.rest = []) :
    Meets (Explained l) (fun _ => Paired l) s.finish := by
  have hend : Meets (Explained l) (fun _ => True) s.expectOperandEnd := by
    unfold Machine.expectOperandEnd
    split
    · trivial
    · rw [h.within.column_eq hr]
      exact .missingOperand
  refine hend.bind fun _ _ => ?_
  obtain ⟨v, ⟨htext, -⟩, hopened⟩ := h
  rw [hr, List.append_nil] at htext
  obtain rfl : l = v := htext
  refine (Stacks.opens_finish s.stack).mono ?_ fun m hnone => (hnone ▸ hopened).paired
  rintro e (he | ⟨rfl, hnone⟩ | ⟨p, ps, rfl, hp⟩)
  · exact .operational he
  · exact .scalarResult (hnone ▸ hopened).paired
  · exact .unmatchedParen (hp ▸ hopened).unpaired_open

end HasRead

end Machine

/-! ### Texts -/

namespace Expression

/-- The first line of a text, without its end. -/
def firstLine (text : List Char) : List Char :=
  text.takeWhile (· != '\n')

/-- The first line explains why it has no value, and if it has one, its parentheses are paired. -/
lemma explained_evaluate (text : List Char) :
    Meets (Explained (firstLine text)) (fun _ => Paired (firstLine text)) (evaluate text) := by
  have hline : '\n' ∉ firstLine text := fun hmem => by simpa using List.mem_takeWhile_imp hmem
  rw [← evaluate_takeWhile text]
  refine Machine.meets_run (fun _ h => h.skipBlanks) (fun _ _ _ h hr _ => h.step hr)
    (fun s h hend => h.finish ?_) (Machine.hasRead_start (firstLine text))
  cases hr : s.cursor.rest with
  | nil => rfl
  | cons ch rest =>
      obtain rfl := hend ch (by rw [hr]; rfl)
      exact absurd (List.mem_of_getElem? (h.within.getElem?_column hr)) hline

/-- **Errors point at their culprits.**  The position that an error names is one of the first line,
with a character that such an error blames, or an operand is missing at the end of the line. -/
theorem culprit_of_evaluate {text : List Char} {e : ExpressionError} {position : ℕ}
    (h : evaluate text = .error e) (hposition : e.position? = some position) :
    position ≤ (firstLine text).length ∧
      ((∃ ch, (firstLine text)[position]? = some ch ∧ e.Blames ch) ∨
        position = (firstLine text).length ∧ e = .missingOperand position) := by
  have hculprit := ((explained_evaluate text).of_eq_error h).exists_culprit hposition
  refine ⟨?_, hculprit⟩
  rcases hculprit with ⟨ch, hget, -⟩ | ⟨hend, -⟩
  · exact (List.getElem?_eq_some_iff.mp hget).1.le
  · exact hend.le

/-- On the line `[1 2; 3]` the second row is too short, and ends at the bracket. -/
theorem culprit_of_evaluate_of_ragged :
    ∃ e position, evaluate "[1 2; 3]\n)".toList = .error e ∧ e.position? = some position ∧
      position ≤ (firstLine "[1 2; 3]\n)".toList).length ∧
      ∃ ch, (firstLine "[1 2; 3]\n)".toList)[position]? = some ch ∧ e.Blames ch := by
  have h : evaluate "[1 2; 3]\n)".toList = .error (.raggedMatrix 1 2 1 7) := by decide +kernel
  obtain ⟨hle, hculprit | ⟨-, he⟩⟩ := culprit_of_evaluate h rfl
  · exact ⟨_, _, h, rfl, hle, hculprit⟩
  · cases he

/-- **Parentheses are matched.**  A parenthesis that is reported has no partner on the first line:
none is open before it, or none behind it closes it.  Where the value is a matrix or a number, every
parenthesis has a partner. -/
theorem unpaired_of_evaluate (text : List Char) :
    (∀ position, evaluate text = .error (.unmatchedParen position) →
      Unpaired (firstLine text) position) ∧
    ((∃ m, evaluate text = .ok m) ∨ evaluate text = .error .scalarResult →
      Paired (firstLine text)) := by
  have hexplained := explained_evaluate text
  refine ⟨fun position h => ?_, ?_⟩
  · cases hexplained.of_eq_error h with
    | operational he => cases he.1
    | culprit _ _ _ hne => cases hne
    | unmatchedParen hunpaired => exact hunpaired
  · rintro (⟨m, h⟩ | h)
    · rw [h] at hexplained
      exact hexplained
    · cases hexplained.of_eq_error h with
      | operational he => exact absurd rfl he.2
      | culprit hp => cases hp
      | scalarResult hpaired => exact hpaired

/-- The second group of `(E1)*(E2` is not closed on its line, a third closing parenthesis follows
the two groups of `((2)))`, and the value of `((2))` is a number. -/
theorem unpaired_of_evaluate_of_groups :
    (evaluate "(E1)*(E2\n)".toList = .error (.unmatchedParen 5) ∧
      Unpaired (firstLine "(E1)*(E2\n)".toList) 5) ∧
    (evaluate "((2)))".toList = .error (.unmatchedParen 5) ∧
      Unpaired (firstLine "((2)))".toList) 5) ∧
    evaluate "((2))".toList = .error .scalarResult ∧ Paired (firstLine "((2))".toList) := by
  have hopen : evaluate "(E1)*(E2\n)".toList = .error (.unmatchedParen 5) := by decide +kernel
  have hclose : evaluate "((2)))".toList = .error (.unmatchedParen 5) := by decide +kernel
  have hscalar : evaluate "((2))".toList = .error .scalarResult := by decide +kernel
  exact ⟨⟨hopen, (unpaired_of_evaluate _).1 5 hopen⟩, ⟨hclose, (unpaired_of_evaluate _).1 5 hclose⟩,
    hscalar, (unpaired_of_evaluate _).2 (Or.inr hscalar)⟩

end Expression

end MatrixReckoner
