import MatrixReckoner.Proofs.Expression.Grammar
import MatrixReckoner.Proofs.Expression.Nesting

/-!
Only the grammar is accepted.

* `Stacks.groups`: how many groups are open, with what each change of the stacks does to it.
* `Machine.Reads`, `Machine.step_reads`: the text of an accepted token, where it may stand, and the
  groups that are open behind it.
* `Behind`, `Before`, `Closes`: what may stand behind a primary, before one, and behind an
  expression in open groups.
* `Machine.completes_of_run`: the rest of an accepted line completes what was read of it, so that
  the whole line is derived in the grammar.
-/

namespace MatrixReckoner

open Expression Expression.Grammar

/-! ### Open groups -/

namespace Stacks

variable {s s' : Stacks} {position : ℕ}

/-- The number of open parentheses that wait. -/
def openParens : List Pending → ℕ
  | [] => 0
  | .openParen _ :: pending => openParens pending + 1
  | .operator _ :: pending => openParens pending

/-- The number of groups that are open. -/
def groups (s : Stacks) : ℕ := openParens s.pending

lemma openParens_eq_length (pending : List Pending) :
    openParens pending = (opens pending).length := by
  induction pending with
  | nil => rfl
  | cons top pending ih =>
      cases top with
      | openParen position => exact congrArg (· + 1) ih
      | operator op => exact ih

/-- No operator opens or closes a group. -/
lemma groups_of_pushOperator {op : Operator} (h : s.pushOperator op = .ok s') :
    s'.groups = s.groups := by
  have hopens : opens s'.pending = opens s.pending := (opens_pushOperator s op).of_eq_ok h
  rw [groups, groups, openParens_eq_length, openParens_eq_length, hopens]

/-- A closing parenthesis closes a group. -/
lemma groups_of_closeGroup (h : s.closeGroup position = .ok s') : s.groups = s'.groups + 1 := by
  obtain ⟨p, hp⟩ := (opens_closeGroup s position).of_eq_ok h
  rw [groups, groups, openParens_eq_length, openParens_eq_length, hp, List.length_cons]

/-- At the end of a line no group is open. -/
lemma groups_of_finish {m : DenseMatrix Float} (h : s.finish = .ok m) : s.groups = 0 := by
  have hopens : opens s.pending = [] := (opens_finish s).of_eq_ok h
  rw [groups, openParens_eq_length, hopens, List.length_nil]

end Stacks

/-! ### Tokens -/

namespace Machine

variable {s s' : Machine} {after : Cursor}

/-- The text that a token takes between two states, where it may stand, and the groups that are open
behind it. -/
inductive Reads (s s' : Machine) : Prop where
  | leaf {t : Tree} {u : List Char} : s.previous.endsOperand = false → s'.previous.endsOperand →
      t.LeafSpelled u → s.cursor.Takes u s'.cursor → s'.stack.groups = s.stack.groups → Reads s s'
  | openGroup : s.previous.endsOperand = false → s'.previous.endsOperand = false →
      s.cursor.Takes ['('] s'.cursor → s'.stack.groups = s.stack.groups + 1 → Reads s s'
  | closeGroup : s.previous.endsOperand → s'.previous.endsOperand →
      s.cursor.Takes [')'] s'.cursor → s.stack.groups = s'.stack.groups + 1 → Reads s s'
  | power {b w : List Char} {e : Exponent} : s.previous.endsOperand → s'.previous.endsOperand →
      Blanks b → e.Spelled w → s.cursor.Takes ('^' :: b ++ w) s'.cursor →
      s'.stack.groups = s.stack.groups → Reads s s'
  | operator {op : Operator} : s.previous.endsOperand → s'.previous.endsOperand = false →
      s.cursor.Takes [op.symbol] s'.cursor → s'.stack.groups = s.stack.groups → Reads s s'

lemma endsOperand_of_expectOperand {x : Unit} (h : s.expectOperand = .ok x) :
    s.previous.endsOperand = false := by
  rw [expectOperand] at h
  split at h
  · cases h
  · next hp => simpa using hp

lemma endsOperand_of_expectOperandEnd {x : Unit} (h : s.expectOperandEnd = .ok x) :
    s.previous.endsOperand := by
  rw [expectOperandEnd] at h
  split at h
  · next hp => exact hp
  · cases h

lemma reads_literal (ht : s.cursor.Takes ['['] after) (h : s.literal after = .ok s') :
    Reads s s' := by
  obtain ⟨_, hp, h⟩ := bind_eq_ok_iff.mp h
  obtain ⟨⟨a, c⟩, hread, h⟩ := bind_eq_ok_iff.mp h
  cases h
  obtain ⟨n, rows, u, hpos, hn, hrows, ht'⟩ := Cursor.exists_of_literal_eq_ok hread
  exact .leaf (endsOperand_of_expectOperand hp) rfl (.literal hpos hn hrows) (ht.append ht') rfl

lemma reads_identity {letter : Char} (hletter : letter = 'E' ∨ letter = 'I')
    (ht : s.cursor.Takes [letter] after) (h : s.identity after = .ok s') : Reads s s' := by
  obtain ⟨_, hp, h⟩ := bind_eq_ok_iff.mp h
  split at h
  · cases h
  · next n c hread =>
    obtain ⟨a, -, h⟩ := bind_eq_ok_iff.mp h
    cases h
    obtain ⟨w, hw, hne, ht', -, hn, hlt⟩ := Cursor.order_eq_some_iff.mp hread
    exact .leaf (endsOperand_of_expectOperand hp) rfl (.identity hletter hw hne hn hlt)
      (ht.append ht') rfl

lemma reads_power (ht : s.cursor.Takes ['^'] after) (h : s.power after = .ok s') :
    Reads s s' := by
  rw [power] at h
  split at h
  · next a below htakes hoperands =>
    obtain ⟨⟨a', c⟩, hread, h⟩ := bind_eq_ok_iff.mp h
    cases h
    obtain ⟨b, e, w, hb, he, ht'⟩ := exists_of_exponent_eq_ok hread
    have hp : s.previous.endsOperand := by
      cases hprevious : s.previous <;> rw [hprevious] at htakes <;> first | rfl | cases htakes
    exact .power hp rfl hb he (ht.append ht') rfl
  · cases h

lemma reads_negative (hp : s.previous.endsOperand = false) (ht : s.cursor.Takes ['-'] after)
    (h : s.negative after = .ok s') : Reads s s' := by
  rw [negative] at h
  split at h
  · obtain ⟨⟨x, c⟩, hread, h⟩ := bind_eq_ok_iff.mp h
    cases h
    obtain ⟨n, u, hu, ht', -, -⟩ := Cursor.signedNumber_eq_ok_iff.mp hread
    exact .leaf hp rfl (.scalar (d := ⟨true, n⟩) ⟨u, hu, rfl⟩) (ht.append ht') rfl
  · cases h

lemma reads_number (h : s.number = .ok s') : Reads s s' := by
  obtain ⟨_, hp, h⟩ := bind_eq_ok_iff.mp h
  obtain ⟨⟨x, c⟩, hread, h⟩ := bind_eq_ok_iff.mp h
  cases h
  obtain ⟨n, u, hu, ht', -, -⟩ := Cursor.signedNumber_eq_ok_iff.mp hread
  exact .leaf (endsOperand_of_expectOperand hp) rfl (.scalar (d := ⟨false, n⟩) ⟨u, hu, rfl⟩) ht' rfl

/-- **What a token takes**, if it is accepted. -/
theorem step_reads {ch : Char} (ht : s.cursor.Takes [ch] after) (h : s.step ch after = .ok s') :
    Reads s s' := by
  rw [step] at h
  split at h
  · next hch => exact reads_literal (hch ▸ ht) h
  split at h
  · next hch => exact reads_identity hch ht h
  split at h
  · next hch =>
    obtain ⟨_, hp, h⟩ := bind_eq_ok_iff.mp h
    cases h
    exact .openGroup (endsOperand_of_expectOperand hp) rfl (hch ▸ ht) rfl
  split at h
  · next hch =>
    obtain ⟨_, hp, h⟩ := bind_eq_ok_iff.mp h
    obtain ⟨stack, hstack, h⟩ := bind_eq_ok_iff.mp h
    cases h
    exact .closeGroup (endsOperand_of_expectOperandEnd hp) rfl (hch ▸ ht)
      (Stacks.groups_of_closeGroup hstack)
  split at h
  · next hch => exact reads_power (hch ▸ ht) h
  split at h
  · next hch => exact reads_negative hch.2 (hch.1 ▸ ht) h
  split at h
  · exact reads_number h
  · split at h
    · next op hop =>
      obtain rfl := Operator.ofChar?_eq_some_iff.mp hop
      obtain ⟨_, hp, h⟩ := bind_eq_ok_iff.mp h
      obtain ⟨stack, hstack, h⟩ := bind_eq_ok_iff.mp h
      cases h
      exact .operator (endsOperand_of_expectOperandEnd hp) rfl ht
        (Stacks.groups_of_pushOperator hstack)
    · cases h

end Machine

/-! ### What completes a line -/

namespace Expression.Grammar

variable {C : ℕ → List Char → Prop} {column d : ℕ} {b v : List Char}

/-- What may stand behind a primary: its powers, the terms that are joined to it, and a text of the
class `C`. -/
inductive Behind (C : ℕ → List Char → Prop) (column : ℕ) : List Char → Prop where
  | mk {es : List (ℕ × Exponent)} {ts : List (Operator × Tree)} {u w v : List Char} :
      Powers column es u → Tail Term (column + u.length) ts w →
      C (column + u.length + w.length) v → Behind C column (u ++ w ++ v)

/-- Blanks, an expression, and a text of the class `C`. -/
inductive Before (C : ℕ → List Char → Prop) (column : ℕ) : List Char → Prop where
  | mk {t : Tree} {b u v : List Char} : Blanks b → Expr (column + b.length) t u →
      C (column + b.length + u.length) v → Before C column (b ++ u ++ v)

/-- What has to stand behind an expression in `d` open groups: one closing parenthesis after
another, each with what may stand behind its group. -/
def Closes : ℕ → ℕ → List Char → Prop
  | 0, _, v => Blanks v
  | d + 1, column, v => ∃ b v', v = b ++ ')' :: v' ∧ Blanks b ∧
      Behind (Closes d) (column + b.length + 1) v'

lemma before_of_primary {t : Tree} {u : List Char} (hb : Blanks b)
    (ht : Primary (column + b.length) t u) (h : Behind C (column + b.length + u.length) v) :
    Before C column (b ++ u ++ v) := by
  obtain @⟨es, ts, u', w, v, hes, hts, hv⟩ := h
  have hterm : Term (column + b.length) (raised t es) (u ++ u') := .powers ht hes
  rw [Nat.add_assoc _ u.length, ← List.length_append] at hts hv
  have hexpr := Expr.chain hterm hts
  rw [Nat.add_assoc _ (u ++ u').length, ← List.length_append] at hv
  simpa using Before.mk hb hexpr hv

lemma behind_power {b' w : List Char} {e : Exponent} (hb : Blanks b) (hb' : Blanks b')
    (he : e.Spelled w) (h : Behind C (column + (b ++ '^' :: b' ++ w).length) v) :
    Behind C column (b ++ '^' :: b' ++ w ++ v) := by
  obtain @⟨es, ts, u', w', v, hes, hts, hv⟩ := h
  have hlength : column + (b ++ '^' :: b' ++ w).length =
      column + b.length + 1 + b'.length + w.length := by
    simp only [List.length_append, List.length_cons]
    omega
  rw [Nat.add_assoc _ (b ++ '^' :: b' ++ w).length, ← List.length_append] at hts hv
  rw [hlength] at hes
  simpa using Behind.mk (.cons hb hb' he hes) hts hv

lemma behind_operator {op : Operator} (hb : Blanks b)
    (h : Before C (column + (b ++ [op.symbol]).length) v) :
    Behind C column (b ++ [op.symbol] ++ v) := by
  obtain @⟨_, b', _, v, hb', ht, hv⟩ := h
  cases ht with
  | @chain _ t ts u w ht hts =>
      have hlength : column + (b ++ [op.symbol]).length = column + b.length + 1 := by
        simp only [List.length_append, List.length_singleton]
        omega
      rw [hlength] at ht hts hv
      have htail : Tail Term column ((op, t) :: ts)
          (b ++ op.symbol :: b' ++ u ++ w) :=
        .cons hb hb' ht hts
      have hbehind : Behind C column ([] ++ (b ++ op.symbol :: b' ++ u ++ w) ++ v) :=
        .mk .nil htail (by simpa [Nat.add_assoc, Nat.add_comm 1] using hv)
      simpa using hbehind

lemma behind_close (hb : Blanks b) (h : Behind (Closes d) (column + (b ++ [')']).length) v) :
    Behind (Closes (d + 1)) column (b ++ [')'] ++ v) := by
  have hcloses : Closes (d + 1) column (b ++ ')' :: v) :=
    ⟨b, v, rfl, hb, by simpa [Nat.add_assoc] using h⟩
  simpa using Behind.mk .nil .nil hcloses

lemma before_group (hb : Blanks b)
    (h : Before (Closes (d + 1)) (column + (b ++ ['(']).length) v) :
    Before (Closes d) column (b ++ ['('] ++ v) := by
  obtain @⟨t, b₁, u, _, hb₁, ht, b₂, v, rfl, hb₂, hv⟩ := h
  have hlength : column + (b ++ ['(']).length = column + b.length + 1 := by
    simp only [List.length_append, List.length_singleton]
    omega
  rw [hlength] at ht hv
  have hgroup := Primary.group hb₁ hb₂ ht
  simpa using before_of_primary hb hgroup (by simpa [Nat.add_assoc, Nat.add_comm 1] using hv)

end Expression.Grammar

namespace Machine

/-- The text `v` completes what was read of a line. -/
def Completes (s : Machine) (v : List Char) : Prop :=
  if s.previous.endsOperand then Behind (Closes s.stack.groups) s.cursor.column v
  else Before (Closes s.stack.groups) s.cursor.column v

/-- What completes a line behind a token completes it before that token, too. -/
lemma Reads.completes {s s' : Machine} {v : List Char} (h : Reads s.skipBlanks s')
    (hv : s'.Completes v) : ∃ u, s.cursor.Takes u s'.cursor ∧ s.Completes (u ++ v) := by
  obtain ⟨b, hb, ht, -⟩ := Cursor.skipBlanks_eq_iff.mp (rfl : s.cursor.skipBlanks = _)
  have hprevious : s.skipBlanks.previous = s.previous := rfl
  have hstack : s.skipBlanks.stack = s.stack := rfl
  cases h with
  | leaf hp hp' hu ht' hgroups =>
      rw [hprevious] at hp
      rw [Completes, if_pos hp', hgroups, hstack, (ht.append ht').2] at hv
      refine ⟨_, ht.append ht', ?_⟩
      rw [Completes, if_neg (by simp [hp])]
      exact before_of_primary hb (.leaf hu) (by simpa [Nat.add_assoc] using hv)
  | openGroup hp hp' ht' hgroups =>
      rw [hprevious] at hp
      rw [Completes, if_neg (by simp [hp']), hgroups, hstack, (ht.append ht').2] at hv
      refine ⟨_, ht.append ht', ?_⟩
      rw [Completes, if_neg (by simp [hp])]
      exact before_group hb hv
  | closeGroup hp hp' ht' hgroups =>
      rw [hprevious] at hp
      rw [hstack] at hgroups
      rw [Completes, if_pos hp', (ht.append ht').2] at hv
      refine ⟨_, ht.append ht', ?_⟩
      rw [Completes, if_pos hp, hgroups]
      exact behind_close hb hv
  | power hp hp' hb' he ht' hgroups =>
      rw [hprevious] at hp
      rw [Completes, if_pos hp', hgroups, hstack, (ht.append ht').2] at hv
      refine ⟨_, ht.append ht', ?_⟩
      rw [Completes, if_pos hp]
      simpa using behind_power hb hb' he (by simpa using hv)
  | operator hp hp' ht' hgroups =>
      rw [hprevious] at hp
      rw [Completes, if_neg (by simp [hp']), hgroups, hstack, (ht.append ht').2] at hv
      refine ⟨_, ht.append ht', ?_⟩
      rw [Completes, if_pos hp]
      exact behind_operator hb hv

/-- At the end of a line nothing is missing. -/
lemma completes_of_finish {s : Machine} {m : DenseMatrix Float} (h : s.finish = .ok m) :
    s.previous.endsOperand ∧ s.stack.groups = 0 := by
  obtain ⟨_, hp, h⟩ := bind_eq_ok_iff.mp h
  exact ⟨endsOperand_of_expectOperandEnd hp, Stacks.groups_of_finish h⟩

/-- **The rest of an accepted line completes what was read of it.** -/
theorem completes_of_run {s : Machine} {m : DenseMatrix Float} (h : s.run = .ok m) :
    ∃ v c, s.cursor.Takes v c ∧ LineEnds c.rest ∧ s.Completes v := by
  induction hn : s.cursor.rest.length using Nat.strong_induction_on generalizing s with
  | _ n ih =>
      subst hn
      obtain ⟨b, hb, ht, -⟩ := Cursor.skipBlanks_eq_iff.mp (rfl : s.cursor.skipBlanks = _)
      have hfinish : s.skipBlanks.finish = .ok m → s.Completes b := by
        intro h
        obtain ⟨hp, hgroups⟩ : s.previous.endsOperand ∧ s.stack.groups = 0 :=
          completes_of_finish (s := s.skipBlanks) h
        have hcloses : Closes 0 s.cursor.column b := hb
        rw [Completes, if_pos hp, hgroups]
        simpa using Behind.mk .nil .nil hcloses
      rw [run_eq] at h
      split at h
      · next hrest => exact ⟨b, _, ht, Or.inl hrest, hfinish h⟩
      · next ch rest hrest =>
        split at h
        · next hch => exact ⟨b, _, ht, Or.inr ⟨rest, by rw [← hch]; exact hrest⟩, hfinish h⟩
        · obtain ⟨s', hstep, h⟩ := bind_eq_ok_iff.mp h
          have hlt : s'.cursor.rest.length < s.cursor.rest.length :=
            (step_length_lt hrest hstep).trans_le s.cursor.skipBlanks_length_le
          obtain ⟨v, c, ht', hend, hv⟩ := ih _ hlt h rfl
          have hreads := step_reads (Cursor.takes_singleton_iff.mpr ⟨hrest, rfl⟩) hstep
          obtain ⟨u, hu, huv⟩ := hreads.completes hv
          exact ⟨u ++ v, c, hu.append ht', hend, huv⟩

end Machine

/-- **Only the grammar is accepted**: the text of an accepted line is derived in the grammar, blanks
around it apart, and the value of the line is that of the usual reading. -/
theorem Expression.exists_expr_of_evaluate_eq_ok {text : List Char} {m : DenseMatrix Float}
    (h : evaluate text = .ok m) :
    ∃ b t u b', text.takeWhile (· ≠ '\n') = b ++ u ++ b' ∧ Blanks b ∧ Blanks b' ∧
      Expr b.length t u ∧ t.eval = .ok (.matrix m) := by
  obtain ⟨v, c, ht, hend, hv⟩ := Machine.completes_of_run h
  have hbefore : Before (Closes 0) 0 v := hv
  obtain @⟨t, b, u, b', hb, hu, hb'⟩ := hbefore
  have hb' : Blanks b' := hb'
  have hspelled := hu.spelled
  refine ⟨b, t, u, b', ?_, hb, hb', by simpa using hu, ?_⟩
  · have hline : ∀ ch ∈ b ++ u ++ b', decide (ch ≠ '\n') := by
      have hmem : '\n' ∉ b ++ u ++ b' := by
        simp [hb.newline_notMem, hb'.newline_notMem, Tree.newline_notMem hspelled]
      simpa using fun ch hch => ne_of_mem_of_not_mem hch hmem
    have htext : text = b ++ u ++ b' ++ c.rest := ht.1
    have hrest : c.rest.takeWhile (· ≠ '\n') = [] := by
      rcases hend with hr | ⟨w, hr⟩ <;> simp [hr]
    rw [htext, List.takeWhile_append_of_pos hline, hrest, List.append_nil]
  · have hvalue : evaluate text = t.value := Machine.run_line hb hb' hspelled ht hend
    rw [hvalue, Tree.value] at h
    obtain ⟨x, hx, h⟩ := bind_eq_ok_iff.mp h
    cases x with
    | matrix a => cases h; exact hx
    | scalar x => cases h

/-- The line `(E1)^T`, with a parenthesis on the line behind it. -/
theorem Expression.exists_expr_of_transposed_identity :
    ∃ m, evaluate ['(', 'E', '1', ')', '^', 'T', '\n', ')'] = .ok m ∧
      ∃ b t u b', ['(', 'E', '1', ')', '^', 'T'] = b ++ u ++ b' ∧ Blanks b ∧ Blanks b' ∧
        Expr b.length t u ∧ t.eval = .ok (.matrix m) := by
  have hidentity : (Tree.identity 1).LeafSpelled ['E', '1'] :=
    .identity (Or.inl rfl) (by decide) (by simp) (by decide) (by decide)
  have hnil : Blanks [] := by decide
  have hgroup : Tree.Spelled 3 0 (.identity 1) ['(', 'E', '1', ')'] :=
    .group hnil hnil (.leaf hidentity)
  have hpower : Tree.Spelled 1 0 (.power 4 .transpose (.identity 1))
      ['(', 'E', '1', ')', '^', 'T'] :=
    .power hnil hnil hgroup .transpose
  have ht : (Cursor.ofText ['(', 'E', '1', ')', '^', 'T', '\n', ')']).Takes
      ['(', 'E', '1', ')', '^', 'T'] ⟨['\n', ')'], 6⟩ :=
    ⟨rfl, rfl⟩
  have hvalue : evaluate ['(', 'E', '1', ')', '^', 'T', '\n', ')'] = Tree.value _ :=
    Machine.run_line hnil hnil hpower ht (Or.inr ⟨_, rfl⟩)
  obtain ⟨m, hm⟩ : ∃ m, (Tree.power 4 .transpose (.identity 1)).value = .ok m := ⟨_, rfl⟩
  have h := hvalue.trans hm
  exact ⟨m, h, exists_expr_of_evaluate_eq_ok h⟩

end MatrixReckoner
