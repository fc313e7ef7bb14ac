import Mathlib.Data.List.TakeWhile
import Mathlib.Tactic
import MatrixReckoner.Proofs.Expression.Balance
import MatrixReckoner.Proofs.Expression.Evaluation

/-!
The value of a line does not depend on what is behind the line, nor on blanks at its end, but for
the column at which an operand is missing there.

* `Cursor.onLine`: the text is cut at the end of the line.
* `Cursor.endedBy`, `Machine.endedBy`: another text stands behind the line.
* `Cursor.span_endedBy`, `Cursor.literal_endedBy` and so on: a scanner takes the same and stops at
  the same place, in the other text.
* `Machine.step_endedBy`: so does a token.
* `Machine.run_endedBy`: so does a run, and if an operand is missing at the end of the line, then it
  is missing behind the blanks (`ExpressionError.delayed`).
* `Expression.evaluate_takeWhile`, `Expression.evaluate_append_blanks`: the values of a text, which
  is that of its first line, and of a line with blanks at its end.
-/

namespace MatrixReckoner

open Expression

namespace Cursor

/-- The same place in a text that ends with its line. -/
def onLine (c : Cursor) : Cursor :=
  ⟨c.rest.takeWhile (· != '\n'), c.column⟩

/-- The same place in a text where `v` stands behind the line. -/
def endedBy (v : List Char) (c : Cursor) : Cursor :=
  ⟨c.onLine.rest ++ v, c.column⟩

/-- The column where the line of a place ends. -/
def lineEnd (c : Cursor) : ℕ :=
  c.column + c.onLine.rest.length

variable {b t v u rest : List Char} {c c' : Cursor} {ch : Char}

/-- At a place either the line is over, or a character of the line is next. -/
@[elab_as_elim]
lemma lineCases {P : Cursor → Prop} (ended : ∀ rest n, LineEnds rest → P ⟨rest, n⟩)
    (inLine : ∀ ch rest n, ch ≠ '\n' → P ⟨ch :: rest, n⟩) (c : Cursor) : P c := by
  obtain ⟨_ | ⟨ch, rest⟩, n⟩ := c
  · exact ended [] n (Or.inl rfl)
  · by_cases hline : ch = '\n'
    · exact ended _ n (Or.inr ⟨rest, by rw [hline]⟩)
    · exact inLine ch rest n hline

lemma onLine_of_lineEnds (h : LineEnds rest) (n : ℕ) : onLine ⟨rest, n⟩ = ⟨[], n⟩ := by
  rcases h with rfl | ⟨w, rfl⟩ <;> rfl

lemma endedBy_of_lineEnds (h : LineEnds rest) (n : ℕ) : endedBy v ⟨rest, n⟩ = ⟨v, n⟩ := by
  rw [endedBy, onLine_of_lineEnds h]
  rfl

lemma endedBy_cons (h : ch ≠ '\n') (rest : List Char) (n : ℕ) :
    endedBy v ⟨ch :: rest, n⟩ = ⟨ch :: (endedBy v ⟨rest, n + 1⟩).rest, n⟩ := by
  simp [endedBy, onLine, h]

lemma endedBy_nil (c : Cursor) : c.endedBy [] = c.onLine := by
  rw [endedBy, List.append_nil]
  rfl

/-- Places on one line have one end. -/
lemma SameLine.lineEnd_eq (h : c.SameLine c') : c'.lineEnd = c.lineEnd := by
  obtain ⟨u, hline, hrest, hcolumn⟩ := h
  have hu : ∀ ch ∈ u, (ch != '\n') = true := fun ch hch =>
    bne_iff_ne.mpr (ne_of_mem_of_not_mem hch hline)
  simp only [lineEnd, onLine, hrest, hcolumn, List.takeWhile_append_of_pos hu, List.length_append]
  omega

lemma Takes.endedBy (h : c.Takes u c') (hline : '\n' ∉ u) :
    (c.endedBy v).Takes u (c'.endedBy v) := by
  obtain ⟨hrest, hcolumn⟩ := h
  have hu : ∀ ch ∈ u, (ch != '\n') = true := fun ch hch =>
    bne_iff_ne.mpr (ne_of_mem_of_not_mem hch hline)
  refine ⟨?_, hcolumn⟩
  simp only [Cursor.endedBy, onLine, hrest, List.takeWhile_append_of_pos hu, List.append_assoc]

section Ended

/-! Behind the line are blanks, and then the end of the text or the next line. -/

variable (hb : Blanks b) (ht : LineEnds t)

include hb ht

lemma isBlank_of_mem_head? (hch : ch ∈ (b ++ t).head?) : isBlank ch := by
  cases b with
  | nil =>
      rcases ht with rfl | ⟨w, rfl⟩
      · cases hch
      · cases hch
        rfl
  | cons d b =>
      cases hch
      exact (Bool.and_eq_true_iff.mp (hb ch (by simp))).1

/-! ### Scanners -/

lemma span_endedBy {p : Char → Bool} (hp : ∀ ch, isBlank ch → p ch = false) (c : Cursor) :
    (c.endedBy (b ++ t)).span p = Prod.map id (endedBy (b ++ t)) (c.span p) := by
  rcases hspan : c.span p with ⟨u, c'⟩
  obtain ⟨htakes, hu, hnext⟩ := span_eq_iff.mp hspan
  have hline : '\n' ∉ u := fun hmem => absurd (hu _ hmem) (by rw [hp _ rfl]; decide)
  refine span_eq_iff.mpr ⟨htakes.endedBy hline, hu, ?_⟩
  intro ch hch
  induction c' using lineCases with
  | ended rest n hrest =>
      rw [endedBy_of_lineEnds hrest] at hch
      exact hp ch (isBlank_of_mem_head? hb ht hch)
  | inLine d rest n hne =>
      rw [endedBy_cons hne] at hch
      exact hnext ch hch

/-- Blanks are skipped up to the same character; if none is left on the line, then up to what is
behind the line. -/
lemma skipBlanks_endedBy (c : Cursor) :
    (∃ rest n, LineEnds rest ∧ c.skipBlanks = ⟨rest, n⟩ ∧
      (c.endedBy (b ++ t)).skipBlanks = ⟨t, n + b.length⟩) ∨
    ∃ ch rest n, ch ≠ '\n' ∧ c.skipBlanks = ⟨ch :: rest, n⟩ ∧
      (c.endedBy (b ++ t)).skipBlanks = endedBy (b ++ t) ⟨ch :: rest, n⟩ := by
  obtain ⟨b₀, hb₀, htakes, hnext⟩ := skipBlanks_eq_iff.mp (rfl : c.skipBlanks = c.skipBlanks)
  have hline : '\n' ∉ b₀ := fun hmem => absurd (hb₀ _ hmem) (by decide)
  rw [(htakes.endedBy hline).skipBlanks_eq hb₀]
  clear htakes
  generalize c.skipBlanks = c at hnext ⊢
  induction c using lineCases with
  | ended rest n hrest =>
      refine Or.inl ⟨rest, n, hrest, rfl, ?_⟩
      rw [endedBy_of_lineEnds hrest]
      refine skipBlanks_eq_iff.mpr ⟨b, hb, ⟨rfl, rfl⟩, ?_⟩
      rcases ht with rfl | ⟨w, rfl⟩ <;> rintro _ ⟨⟩
      rfl
  | inLine ch rest n hne =>
      refine Or.inr ⟨ch, rest, n, hne, rfl, ?_⟩
      rw [endedBy_cons hne]
      exact skipBlanks_eq_of_cons (by simp [Blanks]) (.refl _) rfl (hnext ch rfl)

lemma span_isDigit_endedBy (c : Cursor) :
    (c.endedBy (b ++ t)).span Char.isDigit =
      Prod.map id (endedBy (b ++ t)) (c.span Char.isDigit) := by
  refine span_endedBy hb ht (fun ch hch => ?_) c
  by_contra hdigit
  rw [isBlank_of_startsNumber (startsNumber_iff.mpr (Or.inl (by simpa using hdigit)))] at hch
  cases hch

/-- What is behind the line begins with no character that is not a blank. -/
lemma append_ne_cons (hch : isBlank ch = false) : b ++ t ≠ ch :: rest := by
  intro h
  rw [isBlank_of_mem_head? hb ht (h ▸ rfl : ch ∈ (b ++ t).head?)] at hch
  cases hch

lemma numeral_endedBy (c : Cursor) :
    (c.endedBy (b ++ t)).numeral = Prod.map id (endedBy (b ++ t)) c.numeral := by
  rw [numeral, span_isDigit_endedBy hb ht, numeral]
  obtain ⟨whole, c⟩ := c.span Char.isDigit
  dsimp only [Prod.map, id]
  induction c using lineCases with
  | ended rest n hrest =>
      rw [endedBy_of_lineEnds hrest]
      dsimp only
      split
      · next tail heq => exact absurd heq (append_ne_cons hb ht rfl)
      · rcases hrest with rfl | ⟨w, rfl⟩ <;> rfl
  | inLine ch rest n hne =>
      rw [endedBy_cons hne]
      dsimp only
      split
      · next tail heq =>
        cases heq
        exact congrArg (fun s => (Numeral.mk whole s.1, s.2))
          (span_isDigit_endedBy hb ht ⟨rest, n + 1⟩)
      · next hpoint =>
        split
        · next tail heq => cases heq; exact absurd rfl (hpoint _)
        · rw [← endedBy_cons hne]

lemma order_endedBy (c : Cursor) :
    (c.endedBy (b ++ t)).order = Prod.map id (endedBy (b ++ t)) c.order := by
  rw [order, span_isDigit_endedBy hb ht]
  rfl

lemma unsigned_endedBy (c : Cursor) (σ : ℤ) :
    exponent.unsigned (c.endedBy (b ++ t)) σ =
      Prod.map id (endedBy (b ++ t)) (exponent.unsigned c σ) := by
  rw [exponent.unsigned, span_isDigit_endedBy hb ht]
  rfl

lemma exponent_endedBy (c : Cursor) :
    (c.endedBy (b ++ t)).exponent = Prod.map id (endedBy (b ++ t)) c.exponent := by
  induction c using lineCases with
  | ended rest n hrest =>
      have hunsigned := unsigned_endedBy hb ht ⟨rest, n⟩ 1
      have hright : exponent ⟨rest, n⟩ = exponent.unsigned ⟨rest, n⟩ 1 := by
        rcases hrest with rfl | ⟨w, rfl⟩ <;> rfl
      rw [hright, ← hunsigned, endedBy_of_lineEnds hrest, exponent]
      dsimp only
      split
      · next tail heq => exact absurd heq (append_ne_cons hb ht rfl)
      · next tail heq => exact absurd heq (append_ne_cons hb ht rfl)
      · rfl
  | inLine ch rest n hne =>
      have hhead := endedBy_cons (v := b ++ t) hne rest n
      rw [exponent, exponent, hhead]
      dsimp only
      split
      · next tail heq =>
        cases heq
        exact unsigned_endedBy hb ht ⟨rest, n + 1⟩ (-1)
      · next tail heq =>
        cases heq
        exact unsigned_endedBy hb ht ⟨rest, n + 1⟩ 1
      · next hminus hplus =>
        rw [← hhead]
        split
        · next tail heq => cases heq; exact absurd rfl (hminus _)
        · next tail heq => cases heq; exact absurd rfl (hplus _)
        · exact unsigned_endedBy hb ht ⟨ch :: rest, n⟩ 1

lemma exponentAt_endedBy (position : ℕ) (c : Cursor) :
    Scan.exponentAt position (c.endedBy (b ++ t)) =
      Prod.map id (endedBy (b ++ t)) <$> Scan.exponentAt position c := by
  rw [Scan.exponentAt, Scan.exponentAt]
  obtain ⟨rest, n, hrest, hskip, hskip'⟩ | ⟨ch, rest, n, hne, hskip, hskip'⟩ :=
    skipBlanks_endedBy hb ht c
  · rw [hskip, hskip']
    rcases hrest with rfl | ⟨w, rfl⟩ <;> rcases ht with rfl | ⟨w', rfl⟩ <;> rfl
  · have hread := exponent_endedBy hb ht ⟨ch :: rest, n⟩
    rw [hskip, hskip']
    rw [endedBy_cons hne] at hread ⊢
    by_cases htranspose : ch = 'T'
    · subst htranspose
      rfl
    · rw [if_neg (by simpa using htranspose), if_neg (by simpa using htranspose), hread]
      obtain ⟨_ | k, c⟩ := exponent ⟨ch :: rest, n⟩ <;> rfl

lemma signedNumber_endedBy (negative : Bool) (start : ℕ) (c : Cursor) :
    (c.endedBy (b ++ t)).signedNumber negative start =
      Prod.map id (endedBy (b ++ t)) <$> c.signedNumber negative start := by
  rw [signedNumber, signedNumber, numeral_endedBy hb ht]
  dsimp only [Prod.map, id]
  cases c.numeral.1.toDouble? <;> rfl

/-- The end of a line starts no number. -/
lemma any_startsNumber_endedBy (c : Cursor) :
    (c.endedBy (b ++ t)).rest.head?.any startsNumber = c.rest.head?.any startsNumber := by
  induction c using lineCases with
  | ended rest n hrest =>
      have hright : rest.head?.any startsNumber = false := by
        rcases hrest with rfl | ⟨w, rfl⟩ <;> rfl
      rw [endedBy_of_lineEnds hrest, hright]
      dsimp only
      cases hv : (b ++ t).head? with
      | none => rfl
      | some ch =>
          by_contra hstarts
          have hblank := isBlank_of_mem_head? hb ht hv
          rw [isBlank_of_startsNumber (by simpa using hstarts)] at hblank
          cases hblank
  | inLine ch rest n hne =>
      rw [endedBy_cons hne]
      rfl

/-! ### Literals -/

lemma literalToken_endedBy (start : ℕ) (c : Cursor) :
    (c.endedBy (b ++ t)).literalToken start =
      Prod.map id (endedBy (b ++ t)) <$> c.literalToken start := by
  rw [literalToken, literalToken]
  obtain ⟨rest, n, hrest, hskip, hskip'⟩ | ⟨ch, rest, n, hne, hskip, hskip'⟩ :=
    skipBlanks_endedBy hb ht c
  · rw [hskip, hskip']
    rcases hrest with rfl | ⟨w, rfl⟩ <;> rcases ht with rfl | ⟨w', rfl⟩ <;> rfl
  · have hbehind := any_startsNumber_endedBy hb ht ⟨rest, n + 1⟩
    have hnegative := signedNumber_endedBy hb ht true n ⟨rest, n + 1⟩
    have hnumber := signedNumber_endedBy hb ht false n ⟨ch :: rest, n⟩
    rw [hskip, hskip']
    rw [endedBy_cons hne] at hnumber ⊢
    dsimp only at hbehind ⊢
    rw [hbehind, if_neg hne, if_neg hne]
    split_ifs
    · rfl
    · rfl
    · refine (congrArg (Except.map _) hnegative).trans ?_
      cases signedNumber ⟨rest, n + 1⟩ true n <;> rfl
    · rfl
    · refine (congrArg (Except.map _) hnumber).trans ?_
      cases signedNumber ⟨ch :: rest, n⟩ false n <;> rfl
    · rfl

lemma literalFrom_endedBy (start : ℕ) (s : LiteralRows) (c : Cursor) :
    (c.endedBy (b ++ t)).literalFrom start s =
      Prod.map id (endedBy (b ++ t)) <$> c.literalFrom start s := by
  rw [literalFrom_eq, literalFrom_eq, literalToken_endedBy hb ht, bind_map_left, map_bind]
  match htoken : c.literalToken start with
  | .error e => rfl
  | .ok (.entry x, c') =>
      have := literalToken_length_lt htoken
      exact literalFrom_endedBy start (s.push x) c'
  | .ok (.rowEnd position, c') =>
      have := literalToken_length_lt htoken
      change (s.endRow position >>= fun s => (c'.endedBy (b ++ t)).literalFrom start s) =
        Prod.map id (endedBy (b ++ t)) <$> (s.endRow position >>= fun s => c'.literalFrom start s)
      rw [map_bind]
      exact congrArg (s.endRow position >>= ·) (funext fun s => literalFrom_endedBy start s c')
  | .ok (.close position, c') =>
      change (s.endRow position >>= fun s => (·, c'.endedBy (b ++ t)) <$> s.matrix) =
        Prod.map id (endedBy (b ++ t)) <$> (s.endRow position >>= fun s => (·, c') <$> s.matrix)
      simp only [map_bind, Functor.map_map]
      rfl
termination_by c.rest.length

lemma literal_endedBy (start : ℕ) (c : Cursor) :
    (c.endedBy (b ++ t)).literal start =
      Prod.map id (endedBy (b ++ t)) <$> c.literal start :=
  literalFrom_endedBy hb ht ..

end Ended

end Cursor

/-- The error as it is reported with `n` blanks behind a line that ends at the column `stop`: an
operand that is missing there is missing behind the blanks. -/
def ExpressionError.delayed (stop n : ℕ) : ExpressionError → ExpressionError
  | missingOperand position => missingOperand (if position = stop then position + n else position)
  | e => e

namespace Machine

/-- The same machine in a text where `v` stands behind the line. -/
def endedBy (v : List Char) (s : Machine) : Machine :=
  { s with cursor := s.cursor.endedBy v }

variable {b t : List Char} (hb : Blanks b) (ht : LineEnds t)

section Tokens

/-! ### Tokens -/

include hb ht

lemma literal_endedBy (s : Machine) (after : Cursor) :
    (s.endedBy (b ++ t)).literal (after.endedBy (b ++ t)) =
      endedBy (b ++ t) <$> s.literal after := by
  change (s.expectOperand >>= fun _ => (after.endedBy (b ++ t)).literal s.cursor.column >>= fun p =>
      pure (s.pushMatrix p.1 p.2)) = endedBy (b ++ t) <$> (s.expectOperand >>= fun _ =>
        after.literal s.cursor.column >>= fun p => pure (s.pushMatrix p.1 p.2))
  rw [Cursor.literal_endedBy hb ht]
  simp only [map_bind, bind_map_left, map_pure]
  rfl

lemma identity_endedBy (s : Machine) (after : Cursor) :
    (s.endedBy (b ++ t)).identity (after.endedBy (b ++ t)) =
      endedBy (b ++ t) <$> s.identity after := by
  rw [identity, identity, Cursor.order_endedBy hb ht, map_bind]
  obtain ⟨_ | n, c⟩ := after.order
  · rfl
  · simp only [Prod.map, id, map_bind, map_pure]
    rfl

lemma exponent_endedBy (position : ℕ) (after : Cursor) (a : DenseMatrix Float) :
    exponent position (after.endedBy (b ++ t)) a =
      Prod.map id (Cursor.endedBy (b ++ t)) <$> exponent position after a := by
  rw [Pass.exponent_eq, Pass.exponent_eq, Cursor.exponentAt_endedBy hb ht]
  simp only [map_bind, bind_map_left]
  rfl

lemma power_endedBy (s : Machine) (after : Cursor) :
    (s.endedBy (b ++ t)).power (after.endedBy (b ++ t)) =
      endedBy (b ++ t) <$> s.power after := by
  obtain ⟨c, previous, operands, pending⟩ := s
  unfold power endedBy
  dsimp only
  split
  · have h := exponent_endedBy hb ht c.column after ‹_›
    change exponent c.column (after.endedBy (b ++ t)) _ >>= _ = _
    rw [h]
    simp only [map_bind, bind_map_left, map_pure]
    rfl
  · rfl

lemma negative_endedBy (s : Machine) (after : Cursor) :
    (s.endedBy (b ++ t)).negative (after.endedBy (b ++ t)) =
      endedBy (b ++ t) <$> s.negative after := by
  rw [negative, negative, Cursor.any_startsNumber_endedBy hb ht,
    Cursor.signedNumber_endedBy hb ht]
  split
  · simp only [map_bind, bind_map_left, map_pure]
    rfl
  · rfl

lemma number_endedBy (s : Machine) :
    (s.endedBy (b ++ t)).number = endedBy (b ++ t) <$> s.number := by
  have h := Cursor.signedNumber_endedBy hb ht false s.cursor.column s.cursor
  simp only [number, map_bind, map_pure]
  change (s.expectOperand >>= fun _ =>
    (s.cursor.endedBy (b ++ t)).signedNumber false s.cursor.column >>= _) = _
  rw [h]
  simp only [bind_map_left]
  rfl

/-- A token is the same, whatever stands behind the line. -/
lemma step_endedBy (s : Machine) (ch : Char) (after : Cursor) :
    (s.endedBy (b ++ t)).step ch (after.endedBy (b ++ t)) =
      endedBy (b ++ t) <$> s.step ch after := by
  have hprevious : (s.endedBy (b ++ t)).previous = s.previous := rfl
  rw [step, step, hprevious]
  split_ifs
  · exact literal_endedBy hb ht s after
  · exact identity_endedBy hb ht s after
  · simp only [openGroup, map_bind, map_pure]
    rfl
  · simp only [closeGroup, map_bind, map_pure]
    rfl
  · exact power_endedBy hb ht s after
  · exact negative_endedBy hb ht s after
  · exact number_endedBy hb ht s
  · cases Operator.ofChar? ch with
    | some op =>
        simp only [operator, map_bind, map_pure]
        rfl
    | none => rfl

end Tokens

/-! ### Runs -/

/-- A token stays on its line. -/
lemma sameLine_of_step {s s' : Machine} {ch : Char} {rest : List Char}
    (hr : s.cursor.rest = ch :: rest) (hne : ch ≠ '\n')
    (h : s.step ch ⟨rest, s.cursor.column + 1⟩ = .ok s') : s.cursor.SameLine s'.cursor := by
  have hagrees := Pass.agrees_token hr hne
  rw [Cursor.bump_eq hr hne, h] at hagrees
  generalize Pass.token ch s = r at hagrees
  cases hagrees with
  | ok stays => exact stays

/-- An operand that is missing at the end of the line is missing where the line ends. -/
lemma finish_delayed {s : Machine} (h : s.Balanced) (c : Cursor) (n : ℕ)
    (hcolumn : c.column = s.cursor.column + n) :
    finish { s with cursor := c } = s.finish.mapError (.delayed s.cursor.column n) := by
  have hends := h.expectOperandEnd
  have hfinish : ∀ s : Machine, s.finish = s.expectOperandEnd >>= fun _ => s.stack.finish :=
    fun _ => rfl
  rw [hfinish, hfinish]
  rw [expectOperandEnd] at hends ⊢
  rw [expectOperandEnd]
  dsimp only
  split
  · next hprevious =>
    rw [if_pos hprevious] at hends
    have hsupplies := Stacks.supplies_reduceAll hends
    change s.stack.finish = s.stack.finish.mapError _
    cases hstack : s.stack.finish with
    | ok a => rfl
    | error e =>
        have he : e.Supplied := hsupplies.of_eq_error hstack
        cases e with
        | missingOperand position => exact absurd rfl (he.2 position)
        | _ => rfl
  · change Except.error _ = Except.error _
    rw [hcolumn, ExpressionError.delayed, if_pos rfl]

/-- An operand that a token misses is missing before the end of the line. -/
lemma delayed_of_reports {s : Machine} {e : ExpressionError} (h : s.Reports e) {stop : ℕ}
    (hstop : s.cursor.column < stop) (n : ℕ) : e.delayed stop n = e := by
  cases e with
  | missingOperand position =>
      rw [ExpressionError.delayed, h.2 position rfl, if_neg hstop.ne]
  | _ => rfl

/-- **What is behind a line**: the value of the line does not depend on it, and blanks at the end of
the line only delay an operand that is missing there. -/
theorem run_endedBy (hb : Blanks b) (ht : LineEnds t) {s : Machine} (h : s.Balanced) :
    (s.endedBy (b ++ t)).run = s.run.mapError (.delayed s.cursor.lineEnd b.length) := by
  have hend : s.skipBlanks.cursor.lineEnd = s.cursor.lineEnd :=
    s.cursor.sameLine_skipBlanks.lineEnd_eq
  rw [run_eq, run_eq, ← hend]
  obtain ⟨rest, n, hrest, hskip, hskip'⟩ | ⟨ch, rest, n, hne, hskip, hskip'⟩ :=
    Cursor.skipBlanks_endedBy hb ht s.cursor
  · have hbetween : s.skipBlanks = { s with cursor := ⟨rest, n⟩ } := by rw [skipBlanks, hskip]
    have hbehind : (s.endedBy (b ++ t)).skipBlanks = { s with cursor := ⟨t, n + b.length⟩ } :=
      congrArg (fun c => { s with cursor := c }) hskip'
    have hstop : Cursor.lineEnd ⟨rest, n⟩ = n := by
      rw [Cursor.lineEnd, Cursor.onLine_of_lineEnds hrest]
      rfl
    have hfinish := finish_delayed (s := { s with cursor := ⟨rest, n⟩ }) h ⟨t, n + b.length⟩ _ rfl
    rw [hbetween, hbehind, hstop]
    rcases hrest with rfl | ⟨w, rfl⟩ <;> rcases ht with rfl | ⟨w', rfl⟩ <;> exact hfinish
  · let between : Machine := { s with cursor := ⟨ch :: rest, n⟩ }
    have hbetween : s.skipBlanks = between := by rw [skipBlanks, hskip]
    have hbehind : (s.endedBy (b ++ t)).skipBlanks = between.endedBy (b ++ t) :=
      congrArg (fun c => { s with cursor := c }) hskip'
    have hrest : (between.endedBy (b ++ t)).cursor =
        ⟨ch :: (Cursor.endedBy (b ++ t) ⟨rest, n + 1⟩).rest, n⟩ := Cursor.endedBy_cons hne rest n
    have hrest' : between.cursor.rest = ch :: rest := rfl
    rw [hbetween, hbehind, hrest, hrest']
    dsimp only
    rw [if_neg hne, if_neg hne]
    change (between.endedBy (b ++ t)).step ch (Cursor.endedBy (b ++ t) ⟨rest, n + 1⟩) >>= run =
      Except.mapError _ (between.step ch ⟨rest, n + 1⟩ >>= run)
    rw [step_endedBy hb ht, bind_map_left]
    have hbalanced : between.Balanced := h
    have hmeets : Meets _ Balanced (between.step ch ⟨rest, n + 1⟩) := hbalanced.step ch
    cases hstep : between.step ch ⟨rest, n + 1⟩ with
    | error e =>
        have hstop : n < between.cursor.lineEnd := by
          simp [Cursor.lineEnd, Cursor.onLine, between, hne]
        exact congrArg Except.error (delayed_of_reports (hmeets.of_eq_error hstep) hstop _).symm
    | ok s' =>
        have hshorter : s'.cursor.rest.length < s.cursor.rest.length := by
          have hle := s.cursor.skipBlanks_length_le
          rw [hskip] at hle
          exact (step_length_lt hrest' hstep).trans_le hle
        have hbalanced' : s'.Balanced := by
          rw [hstep] at hmeets
          exact hmeets
        rw [← (sameLine_of_step hrest' hne hstep).lineEnd_eq]
        exact run_endedBy hb ht hbalanced'
termination_by s.cursor.rest.length

end Machine

lemma ExpressionError.delayed_zero (stop : ℕ) (e : ExpressionError) : e.delayed stop 0 = e := by
  cases e with
  | missingOperand position => rw [delayed, Nat.add_zero, ite_self]
  | _ => rfl

/-! ### Texts -/

namespace Expression

/-- The value of a text is that of its first line. -/
theorem evaluate_takeWhile (text : List Char) :
    evaluate (text.takeWhile (· != '\n')) = evaluate text := by
  have hrun := Machine.run_endedBy (b := []) (t := []) (by simp [Blanks]) (Or.inl rfl)
    (Machine.balanced_start (.ofText text))
  have hstart : (Machine.start (.ofText text)).endedBy ([] ++ []) =
      .start (.ofText (text.takeWhile (· != '\n'))) :=
    congrArg Machine.start (Cursor.endedBy_nil _)
  rw [hstart, List.length_nil] at hrun
  rw [evaluate, hrun, evaluate]
  cases (Machine.start (.ofText text)).run with
  | ok a => rfl
  | error e => exact congrArg Except.error (e.delayed_zero _)

/-- Blanks at the end of a line only delay an operand that is missing there. -/
theorem evaluate_append_blanks {line b : List Char} (hline : '\n' ∉ line) (hb : Blanks b) :
    evaluate (line ++ b) = (evaluate line).mapError (.delayed line.length b.length) := by
  have hrun := Machine.run_endedBy hb (Or.inl rfl) (Machine.balanced_start (.ofText line))
  have honLine : (Cursor.ofText line).onLine = .ofText line := by
    have htake : line.takeWhile (· != '\n') = line :=
      List.takeWhile_eq_self_iff.mpr fun ch hch => bne_iff_ne.mpr (ne_of_mem_of_not_mem hch hline)
    rw [Cursor.onLine, Cursor.ofText, htake]
  have hstart :
      (Machine.start (.ofText line)).endedBy (b ++ []) = .start (.ofText (line ++ b)) := by
    rw [List.append_nil, Machine.endedBy, Machine.start, Cursor.endedBy, honLine]
    rfl
  have hend : (Cursor.ofText line).lineEnd = line.length := by
    rw [Cursor.lineEnd, honLine]
    exact Nat.zero_add _
  rw [hstart] at hrun
  rw [evaluate, hrun, evaluate, ← hend]
  rfl

end Expression

end MatrixReckoner
