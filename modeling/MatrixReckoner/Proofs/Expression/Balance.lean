import Mathlib.Logic.Relation
import Mathlib.Tactic
import MatrixReckoner.Expression.Reader

/-!
No operator is ever short of operands.

* `Meets`: a computation with a condition on its failures and one on its answers; it `Supplies` if
  it never fails for want of an operand.
* `Machine.Balanced`: between two tokens there is an operand for every waiting operator, and one
  more behind a complete operand.
* `Machine.meets_run`: what all tokens keep to, a run keeps to.
* `Machine.Balanced.step`, `Machine.Balanced.finish`: a token keeps the balance; neither it nor the
  end of the line is short of operands, and where one is missing, that is the place (`Reports`).
* `Pass.Step`, `Reader.Boundary`: the states between two tokens that the lines of a text lead to.
* `Reader.balanced_of_boundary`: these states are balanced, and no answer of a reader is a failure
  for want of operands.
-/

namespace MatrixReckoner

/-! ### Computations that have their operands -/

/-- A computation fails for a cause that meets one condition, or has an answer that meets
another. -/
def Meets {α : Type} (E : ExpressionError → Prop) (P : α → Prop) : Except ExpressionError α → Prop
  | .ok a => P a
  | .error e => E e

/-- The error is no want of operands: neither is an operator short of them, nor is one missing in
the text. -/
def ExpressionError.Supplied (e : ExpressionError) : Prop :=
  e ≠ .insufficientOperands ∧ ∀ position, e ≠ .missingOperand position

/-- A computation does not fail for want of operands, and its answer meets a condition. -/
abbrev Supplies {α : Type} (P : α → Prop) (x : Except ExpressionError α) : Prop :=
  Meets ExpressionError.Supplied P x

namespace Meets

variable {α β : Type} {E E' : ExpressionError → Prop} {P P' : α → Prop} {Q : β → Prop}
  {x : Except ExpressionError α}

lemma of_eq_error {e : ExpressionError} (h : Meets E P x) (he : x = .error e) : E e := by
  subst he
  exact h

lemma of_eq_ok {a : α} (h : Meets E P x) (ha : x = .ok a) : P a := by
  subst ha
  exact h

lemma mono (h : Meets E P x) (hE : ∀ e, E e → E' e) (hP : ∀ a, P a → P' a) : Meets E' P' x := by
  cases x with
  | ok a => exact hP a h
  | error e => exact hE e h

lemma bind {f : α → Except ExpressionError β} (h : Meets E P x)
    (hf : ∀ a, P a → Meets E Q (f a)) : Meets E Q (x >>= f) := by
  cases x with
  | ok a => exact hf a h
  | error e => exact h

lemma map {f : α → β} (h : Meets E (fun a => Q (f a)) x) : Meets E Q (x.map f) := by
  cases x <;> exact h

end Meets

/-- An operation on matrices fails for a cause that lies in the matrices. -/
lemma meets_mapError {α : Type} {E : ExpressionError → Prop} (hmatrix : ∀ cause, E (.matrix cause))
    (x : Except MatrixError α) : Meets E (fun _ => True) (x.mapError .matrix) := by
  cases x with
  | ok a => trivial
  | error cause => exact hmatrix cause

/-- Two operands are not combined for such a cause, or because they are of different kinds. -/
lemma meets_combine {E : ExpressionError → Prop} (hmatrix : ∀ cause, E (.matrix cause))
    (hkinds : ∀ op, E (.incompatibleOperands op)) (op : Operator) (x y : Operand) :
    Meets E (fun _ => True) (op.combine x y) := by
  have hscaled : ∀ a x, Meets E (fun _ => True) (Operator.combine.scaled op a x) := by
    intro a x
    unfold Operator.combine.scaled
    split
    · exact (meets_mapError hmatrix _).map
    · exact hkinds _
  cases x <;> cases y
  · exact (meets_mapError hmatrix _).map
  · exact hscaled _ _
  · exact hscaled _ _
  · trivial

/-- An error of matrices is no want of operands. -/
lemma supplies_mapError {α : Type} (x : Except MatrixError α) :
    Supplies (fun _ => True) (x.mapError ExpressionError.matrix) :=
  meets_mapError (fun _ => ⟨nofun, nofun⟩) x

/-! ### Scanners -/

namespace Cursor

variable (c : Cursor) (start : ℕ)

lemma supplies_signedNumber (negative : Bool) :
    Supplies (fun _ => True) (c.signedNumber negative start) := by
  unfold signedNumber
  dsimp only
  split
  · trivial
  · exact ⟨nofun, nofun⟩

lemma supplies_literalToken : Supplies (fun _ => True) (c.literalToken start) := by
  unfold literalToken
  dsimp only
  split
  · exact ⟨nofun, nofun⟩
  · split_ifs
    · exact ⟨nofun, nofun⟩
    · trivial
    · trivial
    · exact (supplies_signedNumber _ _ _).map
    · exact ⟨nofun, nofun⟩
    · exact (supplies_signedNumber _ _ _).map
    · exact ⟨nofun, nofun⟩

lemma supplies_endRow (s : LiteralRows) (position : ℕ) :
    Supplies (fun _ => True) (s.endRow position) := by
  unfold LiteralRows.endRow
  dsimp only
  split
  · trivial
  · exact ⟨nofun, nofun⟩

lemma supplies_literal : Supplies (fun _ => True) (c.literal start) := by
  unfold literal
  fun_induction literalFrom start .empty c with
  | case1 s c e token =>
    have := supplies_literalToken c start
    rwa [token] at this
  | case2 s c x after token ih => exact ih
  | case3 s c position after token e row =>
    have := supplies_endRow s position
    rwa [row] at this
  | case4 s c position after token s' row ih => exact ih
  | case5 s c position after token =>
    exact (supplies_endRow s position).bind fun s _ =>
      (supplies_mapError _).bind fun _ _ => trivial

end Cursor

/-! ### Stacks -/

namespace Stacks

/-- The number of operators that wait. -/
def operators : List Pending → ℕ
  | [] => 0
  | .openParen _ :: pending => operators pending
  | .operator _ :: pending => operators pending + 1

/-- There is an operand for every waiting operator, and one more. -/
def Complete (s : Stacks) : Prop :=
  s.operands.length = operators s.pending + 1

variable {op : Operator} {operands : List Operand} {pending : List Pending} {s : Stacks}

lemma supplies_combine (op : Operator) (x y : Operand) :
    Supplies (fun _ => True) (op.combine x y) :=
  meets_combine (fun _ => ⟨nofun, nofun⟩) (fun _ => ⟨nofun, nofun⟩) op x y

/-- An operator takes one operand away with itself. -/
lemma supplies_reduce (h : Complete ⟨operands, .operator op :: pending⟩) :
    Supplies (fun operands => Complete ⟨operands, pending⟩) (reduce op operands) := by
  have hlength : operands.length = operators pending + 1 + 1 := h
  match operands with
  | y :: x :: below =>
      refine (supplies_combine op x y).bind fun z _ => ?_
      exact Nat.succ_inj.mp hlength
  | [x] => simp at hlength
  | [] => simp at hlength

lemma supplies_reduceWhile (priority : ℕ) (h : Complete ⟨operands, pending⟩) :
    Supplies Complete (reduceWhile priority operands pending) := by
  induction pending generalizing operands with
  | nil => exact h
  | cons top pending ih =>
      cases top with
      | openParen position => exact h
      | operator op =>
          unfold reduceWhile
          split
          · exact h
          · exact (supplies_reduce h).bind fun _ h => ih h

/-- Behind an operator there are as many operands as operators. -/
lemma supplies_pushOperator (op : Operator) (h : s.Complete) :
    Supplies (fun s => s.operands.length = operators s.pending) (s.pushOperator op) :=
  (supplies_reduceWhile _ h).bind fun _ h => h

lemma supplies_reduceGroup (position : ℕ) (h : Complete ⟨operands, pending⟩) :
    Supplies Complete (reduceGroup position operands pending) := by
  induction pending generalizing operands with
  | nil => exact ⟨nofun, nofun⟩
  | cons top pending ih =>
      cases top with
      | openParen _ => exact h
      | operator op => exact (supplies_reduce h).bind fun _ h => ih h

lemma supplies_reduceAll (h : Complete ⟨operands, pending⟩) :
    Supplies (fun _ => True) (reduceAll operands pending) := by
  induction pending generalizing operands with
  | nil =>
      obtain ⟨x, rfl⟩ := List.length_eq_one_iff.mp h
      cases x with
      | matrix a => trivial
      | scalar x => exact ⟨nofun, nofun⟩
  | cons top pending ih =>
      cases top with
      | openParen position => exact ⟨nofun, nofun⟩
      | operator op => exact (supplies_reduce h).bind fun _ h => ih h

end Stacks

/-! ### Tokens -/

namespace Machine

/-- Between two tokens: there is an operand for every waiting operator, and one more behind a
complete operand. -/
def Balanced (s : Machine) : Prop :=
  s.stack.operands.length =
    Stacks.operators s.stack.pending + if s.previous.endsOperand then 1 else 0

lemma balanced_start (c : Cursor) : (start c).Balanced := rfl

/-- An error that a token reports where it begins: no operator is short of operands, and if an
operand is missing, it is missing there. -/
def Reports (s : Machine) (e : ExpressionError) : Prop :=
  e ≠ .insufficientOperands ∧ ∀ position, e = .missingOperand position → position = s.cursor.column

variable {s : Machine} {after : Cursor}

lemma reports_of_supplied {e : ExpressionError} (h : e.Supplied) : s.Reports e :=
  ⟨h.1, fun position he => absurd he (h.2 position)⟩

lemma reports_missingOperand : s.Reports (.missingOperand s.cursor.column) :=
  ⟨nofun, fun _ he => (ExpressionError.missingOperand.inj he).symm⟩

lemma meets_of_supplies {α : Type} {P : α → Prop} {x : Except ExpressionError α}
    (h : Supplies P x) : Meets s.Reports P x :=
  h.mono (fun _ => reports_of_supplied) fun _ => id

lemma Balanced.skipBlanks (h : s.Balanced) : s.skipBlanks.Balanced := h

/-- Where an operand may begin, there are as many operands as operators. -/
lemma Balanced.expectOperand (h : s.Balanced) :
    Supplies (fun _ => s.stack.operands.length = Stacks.operators s.stack.pending)
      s.expectOperand := by
  unfold Machine.expectOperand
  split
  · exact ⟨nofun, nofun⟩
  · next hprevious =>
    rw [Balanced, if_neg hprevious] at h
    exact h

/-- Behind a complete operand there is one operand more. -/
lemma Balanced.expectOperandEnd (h : s.Balanced) :
    Meets s.Reports (fun _ => s.stack.Complete) s.expectOperandEnd := by
  unfold Machine.expectOperandEnd
  split
  · next hprevious =>
    rw [Balanced, if_pos hprevious] at h
    exact h
  · exact reports_missingOperand

lemma Balanced.literal (h : s.Balanced) : Supplies Balanced (s.literal after) :=
  h.expectOperand.bind fun _ h => (after.supplies_literal _).bind fun _ _ =>
    congrArg (· + 1) h

lemma Balanced.identity (h : s.Balanced) : Supplies Balanced (s.identity after) := by
  refine h.expectOperand.bind fun _ h => ?_
  split
  · exact ⟨nofun, nofun⟩
  · exact (supplies_mapError _).bind fun _ _ => congrArg (· + 1) h

lemma Balanced.openGroup (h : s.Balanced) : Supplies Balanced (s.openGroup after) :=
  h.expectOperand.bind fun _ h => h

lemma Balanced.closeGroup (h : s.Balanced) : Meets s.Reports Balanced (s.closeGroup after) :=
  h.expectOperandEnd.bind fun _ h =>
    meets_of_supplies ((Stacks.supplies_reduceGroup _ h).bind fun _ h => h)

lemma supplies_exponent (position : ℕ) (after : Cursor) (a : DenseMatrix Float) :
    Supplies (fun _ => True) (exponent position after a) := by
  unfold exponent
  dsimp only
  split
  · trivial
  · split
    · exact ⟨nofun, nofun⟩
    · exact (supplies_mapError _).map

lemma Balanced.power (h : s.Balanced) : Supplies Balanced (s.power after) := by
  unfold Machine.power
  split
  · next a below htakes htop =>
    have hends : s.previous.endsOperand := by
      cases hprevious : s.previous <;> rw [hprevious] at htakes <;> first | rfl | cases htakes
    refine (supplies_exponent _ _ _).bind fun p _ => ?_
    have h' := h
    rw [Balanced, hends, htop] at h'
    exact h'
  · exact ⟨nofun, nofun⟩

lemma Balanced.number (h : s.Balanced) : Supplies Balanced s.number :=
  h.expectOperand.bind fun _ h => (s.cursor.supplies_signedNumber _ _).bind fun _ _ =>
    congrArg (· + 1) h

lemma Balanced.negative (h : s.Balanced) (hprevious : s.previous.endsOperand = false) :
    Meets s.Reports Balanced (s.negative after) := by
  rw [Balanced, hprevious] at h
  unfold Machine.negative
  split
  · exact meets_of_supplies
      ((after.supplies_signedNumber _ _).bind fun _ _ => congrArg (· + 1) h)
  · exact reports_missingOperand

lemma Balanced.operator (h : s.Balanced) (op : Operator) :
    Meets s.Reports Balanced (s.operator op after) :=
  h.expectOperandEnd.bind fun _ h =>
    meets_of_supplies ((Stacks.supplies_pushOperator op h).bind fun _ h => h)

/-- A token keeps the balance; it is not short of operands, and where it misses one, it begins. -/
theorem Balanced.step (h : s.Balanced) (ch : Char) :
    Meets s.Reports Balanced (s.step ch after) := by
  unfold Machine.step
  split_ifs with _ _ _ _ _ hminus
  · exact meets_of_supplies h.literal
  · exact meets_of_supplies h.identity
  · exact meets_of_supplies h.openGroup
  · exact h.closeGroup
  · exact meets_of_supplies h.power
  · exact h.negative hminus.2
  · exact meets_of_supplies h.number
  · split
    · exact h.operator _
    · exact reports_of_supplied ⟨nofun, nofun⟩

lemma Balanced.finish (h : s.Balanced) : Meets s.Reports (fun _ => True) s.finish :=
  h.expectOperandEnd.bind fun _ h => meets_of_supplies (Stacks.supplies_reduceAll h)

/-- **What a run keeps to.**  If skipped blanks and accepted tokens keep a condition, and all tokens
and the end of the line answer within `E` and `Q` under it, then so does the run. -/
theorem meets_run {E : ExpressionError → Prop} {P : Machine → Prop} {Q : DenseMatrix Float → Prop}
    (hblanks : ∀ s, P s → P s.skipBlanks)
    (htoken : ∀ s ch rest, P s → s.cursor.rest = ch :: rest → ch ≠ '\n' →
      Meets E P (s.step ch ⟨rest, s.cursor.column + 1⟩))
    (hend : ∀ s, P s → (∀ ch ∈ s.cursor.rest.head?, ch = '\n') → Meets E Q s.finish)
    (h : P s) : Meets E Q s.run := by
  fun_induction Machine.run s with
  | case1 s between line => exact hend _ (hblanks s h) (by simp [between, line])
  | case2 s between rest line => exact hend _ (hblanks s h) (by simp [between, line])
  | case3 s between ch rest line hne e token =>
    exact (htoken _ ch rest (hblanks s h) line hne).of_eq_error token
  | case4 s between ch rest line hne s' token ih =>
    have hstep : Meets E P _ := token ▸ htoken _ ch rest (hblanks s h) line hne
    exact ih hstep

/-- No line is short of operands. -/
theorem Balanced.run (h : s.Balanced) : s.run ≠ .error .insufficientOperands := by
  have hrun : Meets (· ≠ .insufficientOperands) (fun _ => True) s.run := by
    refine meets_run (P := Balanced) (fun _ h => h.skipBlanks) (fun s ch rest h _ _ => ?_)
      (fun s h _ => ?_) h
    · exact (h.step ch).mono (fun _ he => he.1) fun _ => id
    · exact h.finish.mono (fun _ he => he.1) fun _ => id
  exact fun he => hrun.of_eq_error he rfl

end Machine

/-! ### States between two tokens -/

/-- One token of a line, with the blanks before it, is read without a refusal. -/
def Pass.Step (s s' : Machine) : Prop :=
  ∃ ch rest, s.skipBlanks.cursor.rest = ch :: rest ∧ ch ≠ '\n' ∧
    Pass.token ch s.skipBlanks = .ok () s'

/-- The pass over a line goes from one state between two tokens to the next. -/
lemma Pass.Step.line_eq {s s' : Machine} (h : Pass.Step s s') : Pass.line s = Pass.line s' := by
  obtain ⟨ch, rest, hr, hne, htoken⟩ := h
  rw [Pass.line_eq, hr]
  dsimp only
  rw [if_neg hne]
  change EStateM.bind _ _ _ = _
  rw [EStateM.bind, htoken]

lemma Pass.Step.balanced {s s' : Machine} (h : Pass.Step s s') (hs : s.Balanced) : s'.Balanced := by
  obtain ⟨ch, rest, hr, hne, htoken⟩ := h
  have hagrees := Pass.agrees_token hr hne
  rw [htoken] at hagrees
  have hstep : Meets _ Machine.Balanced (s.skipBlanks.step ch s.skipBlanks.cursor.bump) :=
    hs.skipBlanks.step ch
  rw [hagrees.eq_ok] at hstep
  exact hstep

namespace Reader

/-- The reader behind requests. -/
def after (r : Reader) (requests : List Request) : Reader :=
  requests.foldl (fun r request => (r.answer request).2) r

/-- The machine before the first token of the line that a request reads. -/
def lineStart (r : Reader) : Request → Machine
  | .evaluate => .start r.machine.cursor
  | .next => .start r.skipBlanks.machine.cursor

/-- A state between two tokens of a line of the text, which a request reads after others. -/
def Boundary (text : List Char) (s : Machine) : Prop :=
  ∃ requests request,
    Relation.ReflTransGen Pass.Step (((ofText text).after requests).lineStart request) s

lemma Boundary.balanced {text : List Char} {s : Machine} (h : Boundary text s) : s.Balanced := by
  obtain ⟨requests, request, hsteps⟩ := h
  have hstart : (((ofText text).after requests).lineStart request).Balanced := by
    cases request <;> exact Machine.balanced_start _
  induction hsteps with
  | refl => exact hstart
  | tail _ hstep ih => exact hstep.balanced ih

/-- No evaluation, whatever the reader has left behind, fails for want of operands. -/
lemma evaluate_ne (r : Reader) : r.evaluate.1 ≠ .error .insufficientOperands := by
  rw [evaluate_fst]
  exact (Machine.balanced_start _).run

lemma answer_ne (r : Reader) (request : Request) :
    (r.answer request).1 ≠ some (.error .insufficientOperands) := by
  cases request with
  | evaluate => exact fun h => r.evaluate_ne (Option.some.inj h)
  | next =>
      change r.next.1 ≠ _
      unfold next
      dsimp only
      split
      · exact nofun
      · exact fun h => r.skipBlanks.evaluate_ne (Option.some.inj h)

lemma answers_notMem (r : Reader) (requests : List Request) :
    some (.error .insufficientOperands) ∉ r.answers requests := by
  induction requests generalizing r with
  | nil => exact List.not_mem_nil
  | cons request requests ih =>
      exact List.not_mem_cons_of_ne_of_not_mem (r.answer_ne request).symm (ih _)

lemma results_notMem (r : Reader) : .error .insufficientOperands ∉ r.results := by
  fun_induction Reader.results r with
  | case1 r r' hnext => exact List.not_mem_nil
  | case2 r value r' hnext ih =>
    have hvalue := r.answer_ne .next
    rw [answer, hnext] at hvalue
    exact List.not_mem_cons_of_ne_of_not_mem (fun h => hvalue (congrArg some h.symm)) ih

end Reader

/-! ### Powers -/

namespace Pass

variable {s s' : Machine} {position : ℕ}

/-- Behind the exponent of a power the matrix is still on top. -/
lemma exists_top_of_expectMatrix {k : Option ℤ}
    (h : (expectMatrix position >>= fun _ => scan (Scan.exponent position)) s = .ok k s') :
    ∃ a below, s'.stack.operands = .matrix a :: below := by
  have hscan : ∀ {s : Machine}, scan (Scan.exponent position) s = .ok k s' →
      s'.stack = s.stack := by
    intro s h
    unfold scan at h
    split at h <;> cases h
    rfl
  obtain ⟨c, previous, operands, pending⟩ := s
  cases previous with
  | matrix | closeParen =>
    match operands with
    | .matrix a :: below => exact ⟨a, below, by rw [hscan h]⟩
    | .scalar _ :: _ => cases h
    | [] => cases h
  | scalar | openParen | operator => cases h

/-- A matrix on top is raised, or the matrix has no such power. -/
lemma raise_ne {k : Option ℤ} (h : ∃ a below, s.stack.operands = .matrix a :: below)
    (position' : ℕ) : raise position k s ≠ .error (.invalidPower position') s' := by
  obtain ⟨c, previous, operands, pending⟩ := s
  obtain ⟨a, below, rfl⟩ : ∃ a below, operands = .matrix a :: below := h
  change EStateM.bind (MonadExcept.ofExcept (raised a k)) _ _ ≠ _
  have hraised : ∀ e, raised a k = .error e → ∃ cause, .matrix cause = e := by
    intro e he
    cases k with
    | none => cases he
    | some k =>
        obtain ⟨cause, -, hcause⟩ := mapError_eq_error_iff.mp he
        exact ⟨cause, hcause⟩
  cases hpower : raised a k with
  | ok b => exact nofun
  | error e =>
      obtain ⟨cause, rfl⟩ := hraised e hpower
      exact nofun

end Pass

/-- **No operator is ever short of operands.**  Between two tokens of a line, whatever was requested
before, there is an operand for every waiting operator and one more exactly behind a complete
operand.  So no answer is a failure for want of operands, and behind the exponent of a power the
matrix is still there. -/
theorem Reader.balanced_of_boundary (text : List Char) :
    (∀ s, Boundary text s → s.Balanced) ∧
    (∀ requests, some (.error .insufficientOperands) ∉ (ofText text).answers requests) ∧
    .error .insufficientOperands ∉ (ofText text).results ∧
    Expression.evaluate text ≠ .error .insufficientOperands ∧
    ∀ (position : ℕ) (s s' : Machine) (k : Option ℤ),
      (Pass.expectMatrix position >>= fun _ => Pass.scan (Scan.exponent position)) s = .ok k s' →
        ∀ position' s'', Pass.raise position k s' ≠ .error (.invalidPower position') s'' := by
  refine ⟨fun s h => h.balanced, (ofText text).answers_notMem, (ofText text).results_notMem,
    (Machine.balanced_start _).run, fun position s s' k h position' s'' => ?_⟩
  exact Pass.raise_ne (Pass.exists_top_of_expectMatrix h) position'

/-- Behind `2*3` two operands wait for one operator; behind a matrix the exponent `T` is read, and
the matrix is still there. -/
theorem Reader.balanced_of_boundary_of_product :
    (∃ s, Boundary "2*3".toList s ∧ Stacks.operators s.stack.pending = 1 ∧ s.Balanced) ∧
    ∀ a : DenseMatrix Float, ∃ s',
      (Pass.expectMatrix 3 >>= fun _ => Pass.scan (Scan.exponent 3))
        ⟨⟨['T'], 4⟩, .matrix, ⟨[.matrix a], []⟩⟩ = .ok none s' ∧
      ∀ s'', Pass.raise 3 none s' ≠ .error (.invalidPower 3) s'' := by
  have hmain := balanced_of_boundary "2*3".toList
  constructor
  · let x := Numeral.toDouble ⟨['2'], []⟩
    let y := Numeral.toDouble ⟨['3'], []⟩
    let left : Machine := ⟨⟨['*', '3'], 1⟩, .scalar, ⟨[.scalar x], []⟩⟩
    let times : Machine := ⟨⟨['3'], 2⟩, .operator, ⟨[.scalar x], [.operator .mul]⟩⟩
    let right : Machine := ⟨⟨[], 3⟩, .scalar, ⟨[.scalar y, .scalar x], [.operator .mul]⟩⟩
    have hleft : Pass.Step (.start (.ofText "2*3".toList)) left := ⟨'2', _, rfl, by decide, rfl⟩
    have htimes : Pass.Step left times := ⟨'*', _, rfl, by decide, rfl⟩
    have hright : Pass.Step times right := ⟨'3', _, rfl, by decide, rfl⟩
    have hboundary : Boundary "2*3".toList right :=
      ⟨[], .evaluate, ((Relation.ReflTransGen.single hleft).tail htimes).tail hright⟩
    exact ⟨right, hboundary, rfl, hmain.1 right hboundary⟩
  · intro a
    let s : Machine := ⟨⟨['T'], 4⟩, .matrix, ⟨[.matrix a], []⟩⟩
    let s' : Machine := ⟨⟨[], 5⟩, .matrix, ⟨[.matrix a], []⟩⟩
    have hread : (Pass.expectMatrix 3 >>= fun _ => Pass.scan (Scan.exponent 3)) s =
        .ok none s' := rfl
    exact ⟨s', hread, hmain.2.2.2.2 3 s s' none hread 3⟩

end MatrixReckoner
