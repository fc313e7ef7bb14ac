import Mathlib.Tactic
import MatrixReckoner.Proofs.Expression.Literal

/-!
Evaluation in one pass is evaluation of trees.

* `Machine.run_step`: a run by its next token, with the lemmas for blanks and the end of the line.
* `Follows`: what may stand behind a tree of a level, so that no operator inside it waits longer
  than the tree.
* `Machine.run_reduce`: an operator that waits between two operands may be applied at once.
* `Machine.ReadAs`, `Machine.run_spelled`: a spelled tree is read as one operand, its value.
* `Machine.run_line`: the value of a line is that of the tree that it spells.
-/

namespace MatrixReckoner

open Expression

/-! ### Stacks -/

namespace Stacks

variable {op : Operator} {x y : Operand} {below : List Operand} {pending : List Pending}

lemma reduce_eq : reduce op (y :: x :: below) = (· :: below) <$> op.combine x y := rfl

/-- At the end of a line the topmost operator may be applied at once. -/
lemma finish_reduce :
    finish ⟨y :: x :: below, .operator op :: pending⟩ =
      op.combine x y >>= fun z => finish ⟨z :: below, pending⟩ := by
  rw [finish, reduceAll, reduce_eq, bind_map_left]
  rfl

/-- At a closing parenthesis the topmost operator may be applied at once. -/
lemma closeGroup_reduce (position : ℕ) :
    closeGroup ⟨y :: x :: below, .operator op :: pending⟩ position =
      op.combine x y >>= fun z => closeGroup ⟨z :: below, pending⟩ position := by
  rw [closeGroup, reduceGroup, reduce_eq, bind_map_left]
  rfl

/-- At an operator that binds no tighter the topmost operator may be applied at once. -/
lemma pushOperator_reduce {op' : Operator} (h : op'.priority ≤ op.priority) :
    pushOperator ⟨y :: x :: below, .operator op :: pending⟩ op' =
      op.combine x y >>= fun z => pushOperator ⟨z :: below, pending⟩ op' := by
  rw [pushOperator, reduceWhile, if_neg (by omega), reduce_eq, bind_map_left, bind_assoc]
  rfl

/-- The operator on top, if there is one, binds less tightly than the level. -/
def Below (level : ℕ) (pending : List Pending) : Prop :=
  ∀ op, pending.head? = some (.operator op) → op.priority < level

lemma Below.mono {level level' : ℕ} (h : Below level pending) (hle : level ≤ level') :
    Below level' pending :=
  fun op hop => (h op hop).trans_le hle

/-- An operator waits on top of operators that bind less tightly. -/
lemma pushOperator_of_below {operands : List Operand} (h : Below op.priority pending) :
    pushOperator ⟨operands, pending⟩ op = .ok ⟨operands, .operator op :: pending⟩ := by
  have hstop : reduceWhile op.priority operands pending = .ok ⟨operands, pending⟩ := by
    match pending with
    | [] => rfl
    | .openParen _ :: _ => rfl
    | .operator top :: _ => exact if_pos (h top rfl)
  rw [pushOperator, hstop]
  rfl

end Stacks

/-! ### What follows a tree -/

/-- What may stand behind a tree of a level: the end of the line, a closing parenthesis, an operator
that binds no tighter than the level, or, at level three, a power; blanks come before it. -/
inductive Follows (level : ℕ) : List Char → Prop where
  | nil : Follows level []
  | newline {v : List Char} : Follows level ('\n' :: v)
  | close {v : List Char} : Follows level (')' :: v)
  | power {v : List Char} : 3 ≤ level → Follows level ('^' :: v)
  | operator {op : Operator} {v : List Char} : op.priority ≤ level → Follows level (op.symbol :: v)
  | blank {ch : Char} {v : List Char} : isInlineBlank ch → Follows level v → Follows level (ch :: v)

namespace Follows

variable {level level' : ℕ} {b v : List Char}

lemma blanks (hb : Blanks b) (h : Follows level v) : Follows level (b ++ v) := by
  induction b with
  | nil => exact h
  | cons ch b ih => exact .blank (hb ch (by simp)) (ih fun ch hch => hb ch (by simp [hch]))

lemma mono (h : Follows level v) (hle : level ≤ level') : Follows level' v := by
  induction h with
  | nil => exact .nil
  | newline => exact .newline
  | close => exact .close
  | power h => exact .power (h.trans hle)
  | operator h => exact .operator (h.trans hle)
  | blank hb _ ih => exact .blank hb ih

/-- What follows a tree does not go on with a number in it. -/
lemma not_startsNumber (h : Follows level v) : ∀ ch ∈ v.head?, startsNumber ch = false := by
  intro ch hch
  cases h with
  | nil => cases hch
  | @operator op => cases hch; cases op <;> rfl
  | blank hb =>
      cases hch
      by_contra hstart
      rw [Cursor.isInlineBlank_of_startsNumber (by simpa using hstart)] at hb
      exact Bool.false_ne_true hb
  | _ => cases hch; rfl

end Follows

/-- The kind of a token that completes an operand. -/
def Operand.marker : Operand → Marker
  | matrix _ => .matrix
  | scalar _ => .scalar

@[simp] lemma Operand.endsOperand_marker (x : Operand) : x.marker.endsOperand := by
  cases x <;> rfl

namespace Machine

variable {c c' : Cursor} {previous : Marker} {stack : Stacks}

/-! ### Steps of a run -/

/-- Blanks between tokens are skipped. -/
lemma run_blanks {b : List Char} (hb : Blanks b) (ht : c.Takes b c') :
    run ⟨c, previous, stack⟩ = run ⟨c', previous, stack⟩ := by
  rw [run_eq, run_eq]
  simp only [skipBlanks, ht.skipBlanks_eq hb]

/-- The next character begins a token. -/
lemma run_step {ch : Char} {rest : List Char} (hr : c.rest = ch :: rest)
    (hblank : isBlank ch = false) :
    run ⟨c, previous, stack⟩ =
      step ⟨c, previous, stack⟩ ch ⟨rest, c.column + 1⟩ >>= run := by
  have hskip : c.skipBlanks = c := Cursor.skipBlanks_eq_of_cons (by simp [Blanks]) (.refl c) hr
    (Cursor.isInlineBlank_eq_false hblank)
  have hline : ch ≠ '\n' := by
    rintro rfl
    exact absurd hblank (by decide)
  rw [run_eq]
  simp only [skipBlanks, hskip, hr, if_neg hline]

/-- The line ends here. -/
lemma run_finish (h : LineEnds c.rest) :
    run ⟨c, previous, stack⟩ = finish ⟨c, previous, stack⟩ := by
  have hskip : c.skipBlanks = c := by
    refine Cursor.skipBlanks_eq_iff.mpr ⟨[], by simp [Blanks], .refl c, ?_⟩
    rcases h with hr | ⟨rest, hr⟩ <;> rw [hr] <;> rintro _ ⟨⟩
    decide
  rw [run_eq]
  rcases h with hr | ⟨rest, hr⟩ <;> simp [skipBlanks, hskip, hr]

/-! ### Tokens -/

lemma isBlank_symbol (op : Operator) : isBlank op.symbol = false := by
  cases op <;> rfl

lemma expectOperand_eq {s : Machine} (h : s.previous.endsOperand = false) :
    s.expectOperand = .ok () := by
  rw [expectOperand, h]
  rfl

lemma expectOperandEnd_eq {s : Machine} (h : s.previous.endsOperand) :
    s.expectOperandEnd = .ok () := by
  rw [expectOperandEnd, h]
  rfl

/-- An operator character behind an operand is that operator. -/
lemma step_operator {s : Machine} (h : s.previous.endsOperand) (op : Operator) (after : Cursor) :
    s.step op.symbol after = (⟨after, .operator, ·⟩) <$> s.stack.pushOperator op := by
  have hop : s.step op.symbol after = s.operator op after := by
    cases op <;> simp [step, Operator.symbol, Operator.ofChar?, startsNumber, h]
  rw [hop, operator, expectOperandEnd_eq h]
  rfl

/-- A closing parenthesis behind an operand ends a group. -/
lemma step_close {s : Machine} (h : s.previous.endsOperand) (after : Cursor) :
    s.step ')' after = (⟨after, .closeParen, ·⟩) <$> s.stack.closeGroup s.cursor.column := by
  have hclose : s.step ')' after = s.closeGroup after := rfl
  rw [hclose, closeGroup, expectOperandEnd_eq h]
  rfl

/-- An open parenthesis where an operand is due starts a group. -/
lemma step_open {s : Machine} (h : s.previous.endsOperand = false) (after : Cursor) :
    s.step '(' after = .ok ⟨after, .openParen, s.stack.openGroup s.cursor.column⟩ := by
  have hopen : s.step '(' after = s.openGroup after := rfl
  rw [hopen, openGroup, expectOperand_eq h]
  rfl

/-- Behind a group whose value is on top, everything goes on as behind that value. -/
lemma run_closeParen (c : Cursor) (x : Operand) (below : List Operand) (pending : List Pending) :
    run ⟨c, .closeParen, ⟨x :: below, pending⟩⟩ = run ⟨c, x.marker, ⟨x :: below, pending⟩⟩ := by
  have hstep : ∀ (c : Cursor) (ch : Char) (after : Cursor),
      step ⟨c, .closeParen, ⟨x :: below, pending⟩⟩ ch after =
        step ⟨c, x.marker, ⟨x :: below, pending⟩⟩ ch after := by
    intro c ch after
    cases x <;> rfl
  rw [run_eq, run_eq]
  simp only [skipBlanks, hstep]
  cases x <;> rfl

/-- **An operator that waits between two operands may be applied at once**, where no operator that
follows binds more tightly. -/
theorem run_reduce {level : ℕ} {op : Operator} (hf : Follows level c.rest)
    (hlevel : level ≤ op.priority) (x y : Operand) (below : List Operand)
    (pending : List Pending) :
    run ⟨c, y.marker, ⟨y :: x :: below, .operator op :: pending⟩⟩ =
      op.combine x y >>= fun z => run ⟨c, z.marker, ⟨z :: below, pending⟩⟩ := by
  generalize hrest : c.rest = v at hf
  induction hf generalizing c with
  | nil =>
      simp only [run_finish (Or.inl hrest), finish, expectOperandEnd_eq, Operand.endsOperand_marker]
      exact Stacks.finish_reduce
  | @newline v =>
      simp only [run_finish (Or.inr ⟨v, hrest⟩), finish, expectOperandEnd_eq,
        Operand.endsOperand_marker]
      exact Stacks.finish_reduce
  | close =>
      simp only [run_step hrest rfl, step_close, Operand.endsOperand_marker,
        bind_map_left, Stacks.closeGroup_reduce, bind_assoc]
  | power h => cases op <;> simp only [Operator.priority] at hlevel <;> omega
  | @operator op' v h =>
      simp only [run_step hrest (isBlank_symbol op'), step_operator, Operand.endsOperand_marker,
        bind_map_left, Stacks.pushOperator_reduce (h.trans hlevel), bind_assoc]
  | @blank ch v hb _ ih =>
      have ht : c.Takes [ch] ⟨v, c.column + 1⟩ := Cursor.takes_singleton_iff.mpr ⟨hrest, rfl⟩
      have hblank : Blanks [ch] := by simpa [Blanks] using hb
      simp only [run_blanks hblank ht]
      exact ih rfl

/-! ### Leaves and powers -/

lemma step_number {s : Machine} {ch : Char} (h : startsNumber ch)
    (hp : s.previous.endsOperand = false) (after : Cursor) :
    s.step ch after = s.cursor.signedNumber false s.cursor.column >>= fun p =>
      .ok ⟨p.2, .scalar, s.stack.pushOperand (.scalar p.1)⟩ := by
  have hne : ∀ ch' ∈ ['[', 'E', 'I', '(', ')', '^', '-'], ch ≠ ch' := by
    rintro ch' hch' rfl
    revert h
    fin_cases hch' <;> decide
  have hnumber : s.step ch after = s.number := by
    simp only [List.mem_cons, List.not_mem_nil, or_false, forall_eq_or_imp, forall_eq] at hne
    simp [step, hne, h]
  rw [hnumber, number, expectOperand_eq hp]
  rfl

lemma headD_length {n : ℕ} {rows : List (List Decimal)} {u : List Char}
    (h : RowsSpelled rows u) (hn : ∀ row ∈ rows, row.length = n) :
    ((rows.map (List.map Decimal.value)).headD []).length = n := by
  cases h <;> simp [hn _ (List.mem_cons_self ..)]

section Leaves

variable {u : List Char} {below : List Operand} {pending : List Pending}

lemma run_literal {n : ℕ} {rows : List (List Decimal)} (hrows : RowsSpelled rows u)
    (hn : ∀ row ∈ rows, row.length = n) (ht : c.Takes ('[' :: u ++ [']']) c')
    (hp : previous.endsOperand = false) :
    run ⟨c, previous, ⟨below, pending⟩⟩ =
      (Tree.literal rows).eval >>= fun x => run ⟨c', x.marker, ⟨x :: below, pending⟩⟩ := by
  obtain ⟨c₁, ht₁, ht₂⟩ := Cursor.takes_append_iff (u := ['[']).mp ht
  obtain ⟨hr, hcol⟩ := Cursor.takes_singleton_iff.mp ht₁
  have hstep : step ⟨c, previous, ⟨below, pending⟩⟩ '[' c₁ =
      literal ⟨c, previous, ⟨below, pending⟩⟩ c₁ := rfl
  rw [run_step hr rfl, ← hcol, hstep, literal, expectOperand_eq hp,
    Cursor.literal_eq hrows hn ht₂, Tree.eval, headD_length hrows hn, List.length_map]
  cases DenseMatrix.ofList rows.length n (rows.map (List.map Decimal.value)).flatten <;> rfl

lemma run_scalar {d : Decimal} (hd : d.Spelled u) (ht : c.Takes u c')
    (hp : previous.endsOperand = false) (hnext : ∀ ch ∈ c'.rest.head?, startsNumber ch = false) :
    run ⟨c, previous, ⟨below, pending⟩⟩ =
      run ⟨c', .scalar, ⟨.scalar d.value :: below, pending⟩⟩ := by
  have hover : ∀ {v : List Char}, ∀ ch ∈ c'.rest.head?, ¬ Continues v ch := by
    intro v ch hch hcont
    have hstart : startsNumber ch := Cursor.startsNumber_iff.mpr (hcont.imp_right And.left)
    exact absurd (hnext ch hch) (by simp [hstart])
  obtain ⟨negative, n⟩ := d
  obtain ⟨v, hn, rfl⟩ := hd
  obtain ⟨ch, w, rfl, hch⟩ := Cursor.exists_cons_of_numeralSpelled hn
  cases negative with
  | false =>
      have hr : c.rest = ch :: (w ++ c'.rest) := ht.1
      have hread : c.signedNumber false c.column = .ok ((Decimal.mk false n).value, c') :=
        Cursor.signedNumber_eq_ok_iff.mpr ⟨n, _, hn, ht, hover, rfl⟩
      rw [run_step hr (Cursor.isBlank_of_startsNumber hch), step_number hch hp, hread]
      rfl
  | true =>
      obtain ⟨c₁, ht₁, ht₂⟩ := Cursor.takes_append_iff (u := ['-']).mp ht
      obtain ⟨hr, hcol⟩ := Cursor.takes_singleton_iff.mp ht₁
      have hread : c₁.signedNumber true c.column = .ok ((Decimal.mk true n).value, c') :=
        Cursor.signedNumber_eq_ok_iff.mpr ⟨n, _, hn, ht₂, hover, rfl⟩
      have hhead : c₁.rest.head?.any startsNumber := by rw [ht₂.1]; exact hch
      have hstep : step ⟨c, previous, ⟨below, pending⟩⟩ '-' c₁ =
          negative ⟨c, previous, ⟨below, pending⟩⟩ c₁ := by simp [step, hp]
      rw [run_step hr rfl, ← hcol, hstep, negative, if_pos hhead, hread]
      rfl

lemma run_identity {letter : Char} {n : ℕ} {w : List Char} (hletter : letter = 'E' ∨ letter = 'I')
    (hread : ∀ c₁ : Cursor, c₁.Takes w c' → c₁.order = (some n, c')) (ht : c.Takes (letter :: w) c')
    (hp : previous.endsOperand = false) :
    run ⟨c, previous, ⟨below, pending⟩⟩ =
      (Tree.identity n).eval >>= fun x => run ⟨c', x.marker, ⟨x :: below, pending⟩⟩ := by
  obtain ⟨c₁, ht₁, ht₂⟩ := Cursor.takes_append_iff (u := [letter]).mp ht
  obtain ⟨hr, hcol⟩ := Cursor.takes_singleton_iff.mp ht₁
  have hstep : step ⟨c, previous, ⟨below, pending⟩⟩ letter c₁ =
      identity ⟨c, previous, ⟨below, pending⟩⟩ c₁ := by
    rcases hletter with rfl | rfl <;> rfl
  have hblank : isBlank letter = false := by rcases hletter with rfl | rfl <;> rfl
  rw [run_step hr hblank, ← hcol, hstep, identity, expectOperand_eq hp, hread c₁ ht₂, Tree.eval]
  dsimp only
  cases (DenseMatrix.identity n : Except MatrixError (DenseMatrix Float)) <;> rfl

/-- A leaf is read as one operand. -/
lemma run_leaf {t : Tree} (h : t.LeafSpelled u) (ht : c.Takes u c')
    (hp : previous.endsOperand = false) (hnext : ∀ ch ∈ c'.rest.head?, startsNumber ch = false) :
    run ⟨c, previous, ⟨below, pending⟩⟩ =
      t.eval >>= fun x => run ⟨c', x.marker, ⟨x :: below, pending⟩⟩ := by
  cases h with
  | literal hpos hn hrows => exact run_literal hrows hn ht hp
  | scalar hd => exact run_scalar hd ht hp hnext
  | @identity letter n w hletter hw hne hval hlt =>
      have hdigit : ∀ ch ∈ c'.rest.head?, ch.isDigit = false := fun ch hch =>
        (Bool.or_eq_false_iff.mp (hnext ch hch)).1
      exact run_identity hletter (fun c₁ ht₂ => Cursor.order_eq_some_iff.mpr
        ⟨w, hw, hne, ht₂, hdigit, hval, hlt⟩) ht hp

end Leaves

/-- A power acts on the operand on top. -/
lemma run_power {b w : List Char} {e : Exponent} (ht : c.Takes ('^' :: b ++ w) c')
    (hb : Blanks b) (he : e.Spelled w) (hnext : ∀ ch ∈ c'.rest.head?, startsNumber ch = false)
    (x : Operand) (below : List Operand) (pending : List Pending) :
    run ⟨c, x.marker, ⟨x :: below, pending⟩⟩ =
      e.raise c.column x >>= fun y => run ⟨c', y.marker, ⟨y :: below, pending⟩⟩ := by
  obtain ⟨c₁, ht₁, ht₂⟩ := Cursor.takes_append_iff (u := ['^']).mp ht
  obtain ⟨hr, hcol⟩ := Cursor.takes_singleton_iff.mp ht₁
  have hdigit : ∀ ch ∈ c'.rest.head?, ch.isDigit = false := fun ch hch =>
    (Bool.or_eq_false_iff.mp (hnext ch hch)).1
  rw [run_step hr rfl, ← hcol]
  cases x with
  | scalar x => rfl
  | matrix a =>
      have hstep : step ⟨c, .matrix, ⟨.matrix a :: below, pending⟩⟩ '^' c₁ =
          power ⟨c, .matrix, ⟨.matrix a :: below, pending⟩⟩ c₁ := rfl
      rw [Operand.marker, hstep, power]
      dsimp only [Marker.takesPower]
      rw [exponent_eq hb he ht₂ hdigit, Exponent.raise]
      cases e.apply a <;> rfl

/-! ### Trees -/

/-- The text `u` is read as one operand, the value of `t`, where the operators that wait on top bind
less tightly than the level and none that follows binds more tightly. -/
def ReadAs (level column : ℕ) (t : Tree) (u : List Char) : Prop :=
  ∀ {c c' : Cursor} {previous : Marker} {below : List Operand} {pending : List Pending},
    c.column = column → c.Takes u c' → Follows level c'.rest → Stacks.Below level pending →
    previous.endsOperand = false →
    run ⟨c, previous, ⟨below, pending⟩⟩ =
      t.eval >>= fun x => run ⟨c', x.marker, ⟨x :: below, pending⟩⟩

lemma readAs_group {level column : ℕ} {t : Tree} {b b' u : List Char} (hb : Blanks b)
    (hb' : Blanks b') (ih : ReadAs 1 (column + 1 + b.length) t u) :
    ReadAs level column t ('(' :: b ++ u ++ b' ++ [')']) := by
  intro c c' previous below pending hcolumn ht hf _ hp
  simp only [List.cons_append, List.append_assoc] at ht
  obtain ⟨c₁, ht₁, ht⟩ := Cursor.takes_append_iff (u := ['(']).mp ht
  obtain ⟨c₂, ht₂, ht⟩ := Cursor.takes_append_iff.mp ht
  obtain ⟨c₃, ht₃, ht⟩ := Cursor.takes_append_iff.mp ht
  obtain ⟨c₄, ht₄, ht₅⟩ := Cursor.takes_append_iff.mp ht
  obtain ⟨hr, hcol⟩ := Cursor.takes_singleton_iff.mp ht₁
  obtain ⟨hr', hcol'⟩ := Cursor.takes_singleton_iff.mp ht₅
  have hf' : Follows 1 c₃.rest := by
    rw [ht₄.1, hr']
    exact .blanks hb' .close
  have hcol₂ : c₂.column = column + 1 + b.length := by rw [ht₂.2, hcol, hcolumn]
  have hbelow : Stacks.Below 1 (.openParen c.column :: pending) := by rintro _ ⟨⟩
  rw [run_step hr rfl, ← hcol, step_open hp]
  refine (run_blanks hb ht₂).trans ((ih hcol₂ ht₃ hf' hbelow rfl).trans ?_)
  congr 1
  funext x
  rw [run_blanks hb' ht₄, run_step hr' rfl, ← hcol', step_close x.endsOperand_marker]
  exact run_closeParen c' x below pending

lemma readAs_binary {level column : ℕ} {op : Operator} {l r : Tree} {b b' u v : List Char}
    (hle : level ≤ op.priority) (hb : Blanks b) (hb' : Blanks b')
    (ihl : ReadAs op.priority column l u)
    (ihr : ReadAs (op.priority + 1) (column + u.length + b.length + 1 + b'.length) r v) :
    ReadAs level column (.binary op l r) (u ++ b ++ op.symbol :: b' ++ v) := by
  intro c c' previous below pending hcolumn ht hf hbelow hp
  simp only [List.append_assoc, List.cons_append] at ht
  obtain ⟨c₁, ht₁, ht⟩ := Cursor.takes_append_iff.mp ht
  obtain ⟨c₂, ht₂, ht⟩ := Cursor.takes_append_iff.mp ht
  obtain ⟨c₃, ht₃, ht⟩ := Cursor.takes_append_iff (u := [op.symbol]).mp ht
  obtain ⟨c₄, ht₄, ht₅⟩ := Cursor.takes_append_iff.mp ht
  obtain ⟨hrest, hcol⟩ := Cursor.takes_singleton_iff.mp ht₃
  have hfl : Follows op.priority c₁.rest := by
    rw [ht₂.1, hrest]
    exact .blanks hb (.operator le_rfl)
  have hcol₄ : c₄.column = column + u.length + b.length + 1 + b'.length := by
    rw [ht₄.2, hcol, ht₂.2, ht₁.2, hcolumn]
  have hbelow' : Stacks.Below op.priority pending := hbelow.mono hle
  have hbelow'' : Stacks.Below (op.priority + 1) (.operator op :: pending) := by
    rintro _ ⟨⟩
    exact Nat.lt_succ_self _
  -- the operator waits until its right operand is read, and is then applied
  have hright : ∀ x : Operand, run ⟨c₁, x.marker, ⟨x :: below, pending⟩⟩ =
      r.eval >>= fun y => op.combine x y >>= fun z =>
        run ⟨c', z.marker, ⟨z :: below, pending⟩⟩ := by
    intro x
    rw [run_blanks hb ht₂, run_step hrest (isBlank_symbol op), ← hcol,
      step_operator x.endsOperand_marker, Stacks.pushOperator_of_below hbelow']
    refine (run_blanks hb' ht₄).trans
      ((ihr hcol₄ ht₅ (hf.mono (by omega)) hbelow'' rfl).trans ?_)
    congr 1
    funext y
    exact run_reduce hf hle x y below pending
  rw [ihl hcolumn ht₁ hfl hbelow' hp, Tree.eval, bind_assoc]
  congr 1
  funext x
  rw [hright, bind_assoc]

lemma readAs_power {level column : ℕ} {e : Exponent} {t : Tree} {b b' u w : List Char}
    (hb : Blanks b) (hb' : Blanks b') (he : e.Spelled w) (ih : ReadAs 3 column t u) :
    ReadAs level column (.power (column + u.length + b.length) e t)
      (u ++ b ++ '^' :: b' ++ w) := by
  intro c c' previous below pending hcolumn ht hf _ hp
  rw [List.append_assoc, List.append_assoc] at ht
  obtain ⟨c₁, ht₁, ht⟩ := Cursor.takes_append_iff.mp ht
  obtain ⟨c₂, ht₂, ht₃⟩ := Cursor.takes_append_iff.mp ht
  have hf' : Follows 3 c₁.rest := by
    rw [ht₂.1, ht₃.1]
    exact .blanks hb (.power le_rfl)
  -- every operator binds less tightly than a power
  have hbelow : Stacks.Below 3 pending := fun op _ => by cases op <;> decide
  have hcol : c₂.column = column + u.length + b.length := by rw [ht₂.2, ht₁.2, hcolumn]
  rw [ih hcolumn ht₁ hf' hbelow hp, Tree.eval, bind_assoc, ← hcol]
  congr 1
  funext x
  rw [run_blanks hb ht₂, run_power ht₃ hb' he hf.not_startsNumber x below pending]

/-- **A spelled tree is read as one operand, its value.** -/
theorem run_spelled {level column : ℕ} {t : Tree} {u : List Char}
    (h : t.Spelled level column u) : ReadAs level column t u := by
  induction h with
  | leaf h =>
      intro c c' previous below pending _ ht hf _ hp
      exact run_leaf h ht hp hf.not_startsNumber
  | group hb hb' _ ih => exact readAs_group hb hb' ih
  | binary hle hb hb' _ _ ihl ihr => exact readAs_binary hle hb hb' ihl ihr
  | power hb hb' _ he ih => exact readAs_power hb hb' he ih

/-- The value of a line is the value of the tree that it spells. -/
theorem run_line {t : Tree} {b b' u : List Char} (hb : Blanks b) (hb' : Blanks b')
    (h : t.Spelled 1 (c.column + b.length) u) (ht : c.Takes (b ++ u ++ b') c')
    (hend : LineEnds c'.rest) :
    run (start c) = t.value := by
  obtain ⟨c₂, ht, ht₃⟩ := Cursor.takes_append_iff.mp ht
  obtain ⟨c₁, ht₁, ht₂⟩ := Cursor.takes_append_iff.mp ht
  have hf : Follows 1 c₂.rest := by
    rw [ht₃.1]
    rcases hend with hr | ⟨rest, hr⟩ <;> rw [hr]
    · exact .blanks hb' .nil
    · exact .blanks hb' .newline
  have hbelow : Stacks.Below 1 [] := by rintro _ ⟨⟩
  rw [start, run_blanks hb ht₁, Stacks.empty, run_spelled h ht₁.2 ht₂ hf hbelow rfl, Tree.value]
  congr 1
  funext x
  rw [run_blanks hb' ht₃, run_finish hend]
  cases x <;> rfl

end Machine

/-- **Evaluation agrees with trees**: the value of a line is the value of the tree that it spells,
refusals included. What stands on later lines does not matter. -/
theorem Expression.evaluate_spelled {t : Tree} {b b' u v : List Char} (hb : Blanks b)
    (hb' : Blanks b') (h : t.Spelled 1 b.length u) (hv : LineEnds v) :
    evaluate (b ++ u ++ b' ++ v) = t.value := by
  have ht : (Cursor.ofText (b ++ u ++ b' ++ v)).Takes (b ++ u ++ b')
      ⟨v, (b ++ u ++ b').length⟩ :=
    ⟨rfl, (Nat.zero_add _).symm⟩
  have hcolumn : (Cursor.ofText (b ++ u ++ b' ++ v)).column + b.length = b.length :=
    Nat.zero_add _
  exact Machine.run_line hb hb' (by rwa [hcolumn]) ht hv

/-- The line `2*(I1+[3]^T)` with a blank on both sides. -/
theorem Expression.evaluate_scaled_sum :
    evaluate [' ', '2', '*', '(', 'I', '1', '+', '[', '3', ']', '^', 'T', ')', ' '] =
      (Tree.binary .mul (.scalar ⟨false, ⟨['2'], []⟩⟩) (.binary .add (.identity 1)
        (.power 10 .transpose (.literal [[⟨false, ⟨['3'], []⟩⟩]])))).value := by
  have hnumber : ∀ ch : Char, ch.isDigit → (Decimal.mk false ⟨[ch], []⟩).Spelled [ch] :=
    fun _ hch => ⟨_, .whole (by simpa [Digits] using hch) (by simp), rfl⟩
  have hrow : RowsSpelled [[⟨false, ⟨['3'], []⟩⟩]] ['3'] :=
    .last (.cons (b := []) (v := []) (by decide) (hnumber '3' (by decide)) (by rintro _ ⟨⟩)
      (.nil (by decide)))
  have hnil : Blanks [] := by decide
  have hblank : Blanks [' '] := by decide
  have hpower : Tree.Spelled 2 7 (.power 10 .transpose (.literal [[⟨false, ⟨['3'], []⟩⟩]]))
      ['[', '3', ']', '^', 'T'] :=
    .power hnil hnil (.leaf (.literal (n := 1) (by decide) (by simp) hrow)) .transpose
  have hidentity : (Tree.identity 1).LeafSpelled ['I', '1'] :=
    .identity (Or.inr rfl) (by decide) (by simp) (by decide) (by decide)
  have hsum : Tree.Spelled 1 4 (.binary .add (.identity 1)
      (.power 10 .transpose (.literal [[⟨false, ⟨['3'], []⟩⟩]])))
      ['I', '1', '+', '[', '3', ']', '^', 'T'] :=
    .binary (u := ['I', '1']) (by decide) hnil hnil (.leaf hidentity) hpower
  have hproduct : Tree.Spelled 1 1 (.binary .mul (.scalar ⟨false, ⟨['2'], []⟩⟩) (.binary .add
      (.identity 1) (.power 10 .transpose (.literal [[⟨false, ⟨['3'], []⟩⟩]]))))
      ['2', '*', '(', 'I', '1', '+', '[', '3', ']', '^', 'T', ')'] :=
    .binary (u := ['2']) (by decide) hnil hnil (.leaf (.scalar (hnumber '2' (by decide))))
      (.group hnil hnil hsum)
  exact evaluate_spelled (v := []) hblank hblank hproduct (Or.inl rfl)

end MatrixReckoner
