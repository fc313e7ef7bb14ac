import MatrixReckoner.Expression.Machine
import MatrixReckoner.Expression.Scan

/-!
The pass over a line as a change of the machine.  A part of it that refuses leaves the machine as it
is at this moment: behind the last character that was taken, and with the stacks reduced so far.

* `Pass`, `Pass.scan`, `Pass.bump`: a part of the pass, a scanner in it, and one character;
* `Pass.literal`, `Pass.identity`, `Pass.openGroup`, `Pass.closeGroup`, `Pass.power`,
  `Pass.negative`, `Pass.number`, `Pass.operator`: the tokens;
* `Pass.token`, `Pass.finish`, `Pass.line`: a token by its first character, the end of the line, and
  the rest of a line;
* `Pass.agrees_token`, `Pass.agrees_finish`, `Pass.agrees_line`: the machine without refused states
  says the same, and the pass never leaves its line.
-/

namespace MatrixReckoner

/-- A part of the pass over a line: an answer or a refusal, and the machine that it leaves. -/
abbrev Pass := EStateM ExpressionError Machine

namespace Machine

/-- The machine at another place. -/
def moveTo (s : Machine) (c : Cursor) : Machine :=
  { s with cursor := c }

/-- The machine with other stacks. -/
def withStack (s : Machine) (stack : Stacks) : Machine :=
  { s with stack := stack }

/-- The machine with other operands. -/
def withOperands (s : Machine) (operands : List Operand) : Machine :=
  s.withStack { s.stack with operands := operands }

/-- The machine with other waiting entries. -/
def withPending (s : Machine) (pending : List Pending) : Machine :=
  s.withStack { s.stack with pending := pending }

end Machine

namespace Pass

variable {α β γ : Type}

/-! ### Parts of tokens -/

/-- Goes on where a scanner stops. -/
def scan (p : Scan α) : Pass α := fun s =>
  match p s.cursor with
  | .ok a c => .ok a (s.moveTo c)
  | .error e c => .error e (s.moveTo c)

/-- Goes on behind the next character. -/
def bump : Pass Unit :=
  modify fun s => s.moveTo s.cursor.bump

/-- Accepts the beginning of an operand. -/
def expectOperand (position : Nat) : Pass Unit := do
  if (← get).previous.endsOperand then throw (.missingOperator position) else return

/-- Accepts what has to follow a complete operand. -/
def expectOperandEnd (position : Nat) : Pass Unit := do
  if (← get).previous.endsOperand then return else throw (.missingOperand position)

/-- Goes on behind a matrix. -/
def pushMatrix (a : DenseMatrix Float) : Pass Unit :=
  modify fun s => s.pushMatrix a s.cursor

/-- Goes on behind a number. -/
def pushScalar (x : Float) : Pass Unit :=
  modify fun s => s.pushScalar x s.cursor

/-- Takes a waiting operator from above `pending` and joins the two topmost operands, which are gone
if this fails. -/
def reduce (op : Operator) (pending : List Pending) : Pass Unit := do
  modify (·.withPending pending)
  match (← get).stack.operands with
  | right :: left :: below =>
    modify (·.withOperands below)
    let x ← MonadExcept.ofExcept (op.combine left right)
    modify (·.withOperands (x :: below))
  | _ =>
    modify (·.withOperands [])
    throw .insufficientOperands

/-- Applies the waiting operators, which are listed, down to an open parenthesis or to one that
binds less tightly than `priority`. -/
def reduceWhile (priority : Nat) : List Pending → Pass Unit
  | .operator top :: pending =>
    if top.priority < priority then
      return
    else do
      reduce top pending
      reduceWhile priority pending
  | _ => return

/-- Applies the waiting operators above the topmost open parenthesis and removes that; `position`
is that of the closing one. -/
def reduceGroup (position : Nat) : List Pending → Pass Unit
  | .operator op :: pending => do
    reduce op pending
    reduceGroup position pending
  | .openParen _ :: pending => modify (·.withPending pending)
  | [] => throw (.unmatchedParen position)

/-- Takes the last operand, which has to be a matrix. -/
def takeResult : Pass (DenseMatrix Float) := do
  match (← get).stack.operands with
  | [] => throw .insufficientOperands
  | top :: below =>
    modify (·.withOperands below)
    match top, below with
    | .matrix a, [] => return a
    | .scalar _, [] => throw .scalarResult
    | _, _ => throw .insufficientOperands

/-- Applies all waiting operators and takes the last operand. -/
def reduceAll : List Pending → Pass (DenseMatrix Float)
  | .operator op :: pending => do
    reduce op pending
    reduceAll pending
  | .openParen position :: pending => do
    modify (·.withPending pending)
    throw (.unmatchedParen position)
  | [] => takeResult

/-- Accepts a power, which has to follow a matrix. -/
def expectMatrix (position : Nat) : Pass Unit := do
  let s ← get
  match s.previous.takesPower, s.stack.operands with
  | true, .matrix _ :: _ => return
  | _, _ => throw (.invalidPower position)

/-- A matrix raised to an integer or, without one, transposed. -/
def raised (a : DenseMatrix Float) : Option Int → Except ExpressionError (DenseMatrix Float)
  | none => .ok a.transpose
  | some k => (a.integerPower k).mapError .matrix

/-- Raises the matrix on top, or transposes it. -/
def raise (position : Nat) (k : Option Int) : Pass Unit := do
  match (← get).stack.operands with
  | .matrix a :: below =>
    let b ← MonadExcept.ofExcept (raised a k)
    modify fun s => { s.withOperands (.matrix b :: below) with previous := .matrix }
  | _ => throw (.invalidPower position)

/-! ### Tokens -/

/-- A matrix literal. -/
def literal (position : Nat) : Pass Unit := do
  expectOperand position
  pushMatrix (← scan Scan.literal)

/-- An identity matrix. -/
def identity (position : Nat) : Pass Unit := do
  expectOperand position
  bump
  let n ← scan (Scan.order position)
  pushMatrix (← MonadExcept.ofExcept ((DenseMatrix.identity n).mapError .matrix))

/-- An open parenthesis. -/
def openGroup (position : Nat) : Pass Unit := do
  expectOperand position
  bump
  modify fun s => { s.withStack (s.stack.openGroup position) with previous := .openParen }

/-- A closing parenthesis. -/
def closeGroup (position : Nat) : Pass Unit := do
  bump
  expectOperandEnd position
  reduceGroup position (← get).stack.pending
  modify fun s => { s with previous := .closeParen }

/-- A power of the matrix on top. -/
def power (position : Nat) : Pass Unit := do
  bump
  expectMatrix position
  raise position (← scan (Scan.exponent position))

/-- A number with a minus sign, which has to stand directly before it. -/
def negative (position : Nat) : Pass Unit := do
  bump
  if (← get).cursor.rest.head?.any startsNumber then
    pushScalar (← scan (Scan.number true position))
  else
    throw (.missingOperand position)

/-- A number without a sign. -/
def number (position : Nat) : Pass Unit := do
  expectOperand position
  pushScalar (← scan (Scan.number false position))

/-- An operator. -/
def operator (op : Operator) (position : Nat) : Pass Unit := do
  bump
  expectOperandEnd position
  reduceWhile op.priority (← get).stack.pending
  modify fun s =>
    { s.withPending (.operator op :: s.stack.pending) with previous := .operator }

/-- The token that begins with `ch`, which is the next character. -/
def token (ch : Char) : Pass Unit := do
  let s ← get
  let position := s.cursor.column
  if ch = '[' then literal position
  else if ch = 'E' ∨ ch = 'I' then identity position
  else if ch = '(' then openGroup position
  else if ch = ')' then closeGroup position
  else if ch = '^' then power position
  else if ch = '-' ∧ s.previous.endsOperand = false then negative position
  else if startsNumber ch then number position
  else
    match Operator.ofChar? ch with
    | some op => operator op position
    | none => throw (.unexpectedCharacter ch position)

/-- The value at the end of the line. -/
def finish : Pass (DenseMatrix Float) := do
  let s ← get
  expectOperandEnd s.cursor.column
  reduceAll s.stack.pending

/-! ### Agreement -/

section Agreement

variable {s s' : Machine} {answer : β → Machine → γ}

/-- A part that goes on where a scanner stops. -/
theorem scan_bind {p : Scan α} {k : α → Pass β} {x : Except ExpressionError (α × Cursor)}
    {y : α × Cursor → Except ExpressionError γ} (first : Agrees id Prod.mk s.cursor (p s.cursor) x)
    (second : ∀ a c, Agrees Machine.cursor answer (s.moveTo c) (k a (s.moveTo c)) (y (a, c))) :
    Agrees Machine.cursor answer s ((scan p >>= k) s) (x >>= y) := by
  change Agrees Machine.cursor answer s (EStateM.bind (scan p) k s) _
  unfold EStateM.bind scan
  generalize p s.cursor = r at *
  cases first with
  | @ok a c stays =>
    have stays : s.cursor.SameLine (s.moveTo c).cursor := stays
    exact (second a c).of_sameLine stays
  | @error e c stays =>
    have stays : s.cursor.SameLine (s.moveTo c).cursor := stays
    exact .error stays

theorem bump_bind {k : Unit → Pass β} {x : Except ExpressionError γ} {ch : Char} {rest : List Char}
    (e : s.cursor.rest = ch :: rest) (h : ch ≠ '\n')
    (second : Agrees Machine.cursor answer (s.moveTo s.cursor.bump)
      (k () (s.moveTo s.cursor.bump)) x) :
    Agrees Machine.cursor answer s ((bump >>= k) s) x :=
  .modify_bind (Cursor.sameLine_bump e h) second

theorem expectOperand_bind {k : Unit → Pass β} {x : Except ExpressionError γ}
    (second : Agrees Machine.cursor answer s (k () s) x) :
    Agrees Machine.cursor answer s ((expectOperand s.cursor.column >>= k) s)
      (s.expectOperand >>= fun _ => x) := by
  unfold Machine.expectOperand
  change Agrees _ _ s (((if s.previous.endsOperand then throw _ else return : Pass Unit) >>= k) s) _
  split
  · exact .error (.refl _)
  · exact second

/-- The check at a place further on in the token, which `position` is the start of. -/
theorem expectOperandEnd_bind {k : Unit → Pass β} {x : Except ExpressionError γ} (c : Cursor)
    (second : Agrees Machine.cursor answer (s.moveTo c) (k () (s.moveTo c)) x) :
    Agrees Machine.cursor answer (s.moveTo c)
      ((expectOperandEnd s.cursor.column >>= k) (s.moveTo c))
      (s.expectOperandEnd >>= fun _ => x) := by
  unfold Machine.expectOperandEnd
  change Agrees _ _ _
    (((if s.previous.endsOperand then return else throw _ : Pass Unit) >>= k) (s.moveTo c)) _
  split
  · exact second
  · exact .error (.refl _)

/-- A change of the machine behind a part that ends without an answer. -/
theorem modify_after {p : Pass Unit} {g : Machine → Machine} {x : Except ExpressionError α}
    {f : α → Machine} (first : Agrees Machine.cursor (fun _ s => s) s (p s) (f <$> x))
    (keeps : ∀ s, (g s).cursor = s.cursor) :
    Agrees Machine.cursor (fun _ s => s) s ((p >>= fun _ => modify g) s)
      (x >>= fun a => .ok (g (f a))) := by
  rw [← bind_map_left f x fun s => .ok (g s)]
  refine first.bind fun _ s' _ => .ok ?_
  rw [keeps]
  exact .refl _

/-! ### Stacks, which change without a move -/

variable {c : Cursor} {previous : Marker} {operands : List Operand} {pending : List Pending}

theorem reduce_bind {op : Operator} {all : List Pending} {k : Unit → Pass β}
    {y : List Operand → Except ExpressionError γ}
    (second : ∀ operands, Agrees Machine.cursor answer ⟨c, previous, ⟨operands, pending⟩⟩
      (k () ⟨c, previous, ⟨operands, pending⟩⟩) (y operands)) :
    Agrees Machine.cursor answer ⟨c, previous, ⟨operands, all⟩⟩
      ((reduce op pending >>= k) ⟨c, previous, ⟨operands, all⟩⟩)
      (Stacks.reduce op operands >>= y) := by
  match operands with
  | right :: left :: below =>
    have joins : Stacks.reduce op (right :: left :: below) >>= y =
        op.combine left right >>= fun x => y (x :: below) :=
      bind_assoc ..
    have takes : (reduce op pending >>= k) ⟨c, previous, ⟨right :: left :: below, all⟩⟩ =
        ((MonadExcept.ofExcept (op.combine left right) >>= fun x =>
          modify (·.withOperands (x :: below))) >>= k) ⟨c, previous, ⟨below, pending⟩⟩ :=
      rfl
    rw [joins, takes]
    cases op.combine left right with
    | ok x => exact (second (x :: below)).of_sameLine (.refl c)
    | error e => exact .error (.refl c)
  | [] => exact .error (.refl c)
  | [x] => exact .error (.refl c)

theorem agrees_reduceWhile (priority : Nat) :
    Agrees Machine.cursor (fun _ s => s) ⟨c, previous, ⟨operands, pending⟩⟩
      (reduceWhile priority pending ⟨c, previous, ⟨operands, pending⟩⟩)
      ((⟨c, previous, ·⟩) <$> Stacks.reduceWhile priority operands pending) := by
  induction pending generalizing operands with
  | nil => exact .ok (.refl c)
  | cons top pending ih =>
    cases top with
    | openParen position => exact .ok (.refl c)
    | operator op =>
      unfold reduceWhile Stacks.reduceWhile
      by_cases h : op.priority < priority
      · rw [if_pos h, if_pos h]
        exact .ok (.refl c)
      · rw [if_neg h, if_neg h, map_bind]
        exact reduce_bind fun operands => ih

theorem agrees_reduceGroup (position : Nat) :
    Agrees Machine.cursor (fun _ s => s) ⟨c, previous, ⟨operands, pending⟩⟩
      (reduceGroup position pending ⟨c, previous, ⟨operands, pending⟩⟩)
      ((⟨c, previous, ·⟩) <$> Stacks.reduceGroup position operands pending) := by
  induction pending generalizing operands with
  | nil => exact .error (.refl c)
  | cons top pending ih =>
    cases top with
    | openParen _ => exact .ok (.refl c)
    | operator op =>
      unfold reduceGroup Stacks.reduceGroup
      rw [map_bind]
      exact reduce_bind fun operands => ih

theorem agrees_takeResult :
    Agrees Machine.cursor (fun a _ => a) ⟨c, previous, ⟨operands, []⟩⟩
      (takeResult ⟨c, previous, ⟨operands, []⟩⟩) (Stacks.reduceAll operands []) := by
  match operands with
  | [] => exact .error (.refl c)
  | [.matrix a] => exact .ok (.refl c)
  | [.scalar x] => exact .error (.refl c)
  | .matrix _ :: _ :: _ => exact .error (.refl c)
  | .scalar _ :: _ :: _ => exact .error (.refl c)

theorem agrees_reduceAll :
    Agrees Machine.cursor (fun a _ => a) ⟨c, previous, ⟨operands, pending⟩⟩
      (reduceAll pending ⟨c, previous, ⟨operands, pending⟩⟩)
      (Stacks.reduceAll operands pending) := by
  induction pending generalizing operands with
  | nil => exact agrees_takeResult
  | cons top pending ih =>
    cases top with
    | openParen _ => exact .error (.refl c)
    | operator op => exact reduce_bind fun operands => ih

/-! ### Tokens and the end of the line -/

variable {rest : List Char}

theorem agrees_literal (e : s.cursor.rest = '[' :: rest) :
    Agrees Machine.cursor (fun _ s => s) s (literal s.cursor.column s)
      (s.literal s.cursor.bump) :=
  expectOperand_bind (scan_bind (Scan.agrees_literal e) fun _ _ => .ok (.refl _))

/-- An identity as the steps that the pass takes: the operand, the order, the matrix. -/
theorem identity_eq (s : Machine) (after : Cursor) :
    s.identity after = s.expectOperand >>= fun _ =>
      Scan.orderAt s.cursor.column after >>= fun p =>
        (DenseMatrix.identity p.1).mapError .matrix >>= fun a => .ok (s.pushMatrix a p.2) := by
  unfold Machine.identity Scan.orderAt
  generalize after.order = found
  obtain ⟨_ | n, after⟩ := found <;> rfl

theorem agrees_identity {ch : Char} (e : s.cursor.rest = ch :: rest) (h : ch ≠ '\n') :
    Agrees Machine.cursor (fun _ s => s) s (identity s.cursor.column s)
      (s.identity s.cursor.bump) := by
  rw [identity_eq]
  refine expectOperand_bind (bump_bind e h (scan_bind (Scan.agrees_order ..) fun n c => ?_))
  exact .ofExcept_bind fun a => .ok (.refl c)

theorem agrees_openGroup (e : s.cursor.rest = '(' :: rest) :
    Agrees Machine.cursor (fun _ s => s) s (openGroup s.cursor.column s)
      (s.openGroup s.cursor.bump) :=
  expectOperand_bind (bump_bind e (by decide) (.ok (.refl _)))

theorem agrees_closeGroup (e : s.cursor.rest = ')' :: rest) :
    Agrees Machine.cursor (fun _ s => s) s (closeGroup s.cursor.column s)
      (s.closeGroup s.cursor.bump) := by
  obtain ⟨c, previous, operands, pending⟩ := s
  refine bump_bind e (by decide) (expectOperandEnd_bind _ (.get_bind ?_))
  exact modify_after (agrees_reduceGroup c.column) fun _ => rfl

/-- An exponent is read before the matrix is raised to it. -/
theorem exponent_eq (position : Nat) (after : Cursor) (a : DenseMatrix Float) :
    Machine.exponent position after a = Scan.exponentAt position after >>= fun p =>
      raised a p.1 >>= fun b => .ok (b, p.2) := by
  unfold Machine.exponent Scan.exponentAt
  generalize after.skipBlanks = c
  dsimp only
  by_cases transposed : c.rest.head? = some 'T'
  · obtain ⟨rest, e⟩ := List.head?_eq_some_iff.1 transposed
    rw [if_pos transposed, Cursor.bump_eq e (by decide), e]
    rfl
  · rw [if_neg transposed]
    split
    · next rest e => exact absurd (by rw [e]; rfl) transposed
    · generalize c.exponent = found
      obtain ⟨_ | k, after⟩ := found
      · rfl
      · dsimp only [raised, bind, Except.bind]
        cases (a.integerPower k).mapError ExpressionError.matrix <;> rfl

/-- What follows the check of a power may rely on the matrix on top. -/
theorem expectMatrix_bind {k : Unit → Pass β} {x : DenseMatrix Float → List Operand →
      Except ExpressionError γ} {position : Nat}
    (second : ∀ a below, s.stack.operands = .matrix a :: below →
      Agrees Machine.cursor answer s (k () s) (x a below)) :
    Agrees Machine.cursor answer s ((expectMatrix position >>= k) s)
      (match s.previous.takesPower, s.stack.operands with
        | true, .matrix a :: below => x a below
        | _, _ => .error (.invalidPower position)) := by
  obtain ⟨c, previous, operands, pending⟩ := s
  cases previous with
  | matrix | closeParen =>
    match operands with
    | .matrix a :: below => exact second a below rfl
    | .scalar _ :: _ => exact .error (.refl c)
    | [] => exact .error (.refl c)
  | scalar | openParen | operator => exact .error (.refl c)

theorem agrees_power (e : s.cursor.rest = '^' :: rest) :
    Agrees Machine.cursor (fun _ s => s) s (power s.cursor.column s)
      (s.power s.cursor.bump) := by
  obtain ⟨c, previous, operands, pending⟩ := s
  refine bump_bind e (by decide) (expectMatrix_bind fun a below top => ?_)
  cases top
  rw [exponent_eq, bind_assoc]
  refine scan_bind (Scan.agrees_exponent ..) fun k c' => .get_bind ?_
  rw [bind_assoc]
  exact .ofExcept_bind fun b => .ok (.refl c')

theorem agrees_negative (e : s.cursor.rest = '-' :: rest) :
    Agrees Machine.cursor (fun _ s => s) s (negative s.cursor.column s)
      (s.negative s.cursor.bump) :=
  bump_bind e (by decide) (.get_bind (.ite
    (fun _ => scan_bind (Scan.agrees_number ..) fun _ _ => .ok (.refl _)) fun _ => .throw _))

theorem agrees_number :
    Agrees Machine.cursor (fun _ s => s) s (number s.cursor.column s) s.number :=
  expectOperand_bind (scan_bind (Scan.agrees_number ..) fun _ _ => .ok (.refl _))

theorem agrees_operator {ch : Char} (op : Operator) (e : s.cursor.rest = ch :: rest)
    (h : ch ≠ '\n') :
    Agrees Machine.cursor (fun _ s => s) s (operator op s.cursor.column s)
      (s.operator op s.cursor.bump) := by
  obtain ⟨c, previous, operands, pending⟩ := s
  refine bump_bind e h (expectOperandEnd_bind _ (.get_bind ?_))
  unfold Stacks.pushOperator
  rw [bind_assoc]
  exact modify_after (agrees_reduceWhile op.priority) fun _ => rfl

/-- A token changes the machine as the machine itself does. -/
theorem agrees_token {ch : Char} (e : s.cursor.rest = ch :: rest) (h : ch ≠ '\n') :
    Agrees Machine.cursor (fun _ s => s) s (token ch s) (s.step ch s.cursor.bump) := by
  refine .get_bind ?_
  unfold Machine.step
  refine .ite (fun first => agrees_literal (first ▸ e)) fun _ => ?_
  refine .ite (fun _ => agrees_identity e h) fun _ => ?_
  refine .ite (fun first => agrees_openGroup (first ▸ e)) fun _ => ?_
  refine .ite (fun first => agrees_closeGroup (first ▸ e)) fun _ => ?_
  refine .ite (fun first => agrees_power (first ▸ e)) fun _ => ?_
  refine .ite (fun first => agrees_negative (first.1 ▸ e)) fun _ => ?_
  refine .ite (fun _ => agrees_number) fun _ => ?_
  cases Operator.ofChar? ch with
  | some op => exact agrees_operator op e h
  | none => exact .throw _

/-- The end of the line has the value that it has for the machine. -/
theorem agrees_finish (s : Machine) :
    Agrees Machine.cursor (fun a _ => a) s (finish s) s.finish := by
  refine .get_bind (expectOperandEnd_bind s.cursor ?_)
  exact agrees_reduceAll

end Agreement

/-! ### Lines -/

theorem token_length_lt {s s' : Machine} {ch : Char} {rest : List Char}
    (e : s.cursor.rest = ch :: rest) (h : ch ≠ '\n') (token : token ch s = .ok () s') :
    s'.cursor.rest.length < s.cursor.rest.length := by
  have agrees := agrees_token e h
  rw [token] at agrees
  exact Machine.step_length_lt (by rw [Cursor.bump_eq e h, e]) agrees.eq_ok

/-- The value of the rest of the line. -/
def line : Pass (DenseMatrix Float) := fun s =>
  let between := s.skipBlanks
  match _line : between.cursor.rest with
  | [] => finish between
  | ch :: _ =>
    if _inLine : ch = '\n' then
      finish between
    else
      match _token : token ch between with
      | .error e s => .error e s
      | .ok () s => line s
termination_by s => s.cursor.rest.length
decreasing_by
  exact Nat.lt_of_lt_of_le (token_length_lt _line _inLine _token) (Cursor.skipBlanks_length_le _)

/-- The rest of a line, by the next character that is no blank. -/
theorem line_eq (s : Machine) :
    line s = match s.skipBlanks.cursor.rest with
      | [] => finish s.skipBlanks
      | ch :: _ =>
        if ch = '\n' then finish s.skipBlanks
        else (token ch >>= fun _ => line) s.skipBlanks := by
  rw [line]
  split
  · next line => rw [line]
  · next ch rest line =>
    rw [line]
    dsimp only
    split
    · rfl
    · change _ = EStateM.bind (token ch) _ s.skipBlanks
      unfold EStateM.bind
      split
      · next token => rw [token]
      · next token => rw [token]

/-- The pass over the rest of a line has the value that the machine gives, and stays on the line. -/
theorem agrees_line (s : Machine) :
    Agrees Machine.cursor (fun a _ => a) s (line s) s.run := by
  fun_induction line s with
  | case1 s between line =>
    rw [Machine.run_eq, line]
    exact (agrees_finish between).of_sameLine s.cursor.sameLine_skipBlanks
  | case2 s between rest line =>
    rw [Machine.run_eq, line]
    exact (agrees_finish between).of_sameLine s.cursor.sameLine_skipBlanks
  | case3 s between ch rest line inLine e s' token =>
    have agrees := agrees_token line inLine
    rw [token, Cursor.bump_eq line inLine] at agrees
    rw [Machine.run_eq, line]
    dsimp only
    rw [if_neg inLine, agrees.eq_error]
    exact .error (s.cursor.sameLine_skipBlanks.trans agrees.sameLine_of_error)
  | case4 s between ch rest line inLine s' token ih =>
    have agrees := agrees_token line inLine
    rw [token, Cursor.bump_eq line inLine] at agrees
    rw [Machine.run_eq, line]
    dsimp only
    rw [if_neg inLine, agrees.eq_ok]
    exact ih.of_sameLine (s.cursor.sameLine_skipBlanks.trans agrees.sameLine_of_ok)

end Pass

end MatrixReckoner
