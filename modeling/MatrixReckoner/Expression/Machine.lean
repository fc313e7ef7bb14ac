import MatrixReckoner.Element.Basic
import MatrixReckoner.Expression.Literal
import MatrixReckoner.Expression.Stacks

/-!
Expressions are evaluated in one pass: every token changes the state of a machine with two stacks,
and what the token before it was decides whether it may stand where it stands.

* `Marker`: the kind of the token before;
* `Machine`, `Machine.step`: the state between two tokens, and the change that a token makes;
* `Machine.step_length_lt`: a token takes at least one character;
* `Machine.run`, `Machine.run_eq`: the value of the line.
-/

namespace MatrixReckoner

/-- The kind of the last token. -/
inductive Marker where
  | matrix
  | scalar
  | openParen
  | closeParen
  | operator
  deriving DecidableEq, Repr

/-- Whether an operand is complete, so that an operator, a closing parenthesis or the end of the
line may follow. -/
def Marker.endsOperand : Marker → Bool
  | matrix | scalar | closeParen => true
  | openParen | operator => false

/-- Whether a power may follow, if the operand is a matrix. -/
def Marker.takesPower : Marker → Bool
  | matrix | closeParen => true
  | scalar | openParen | operator => false

/-- The state between two tokens. -/
structure Machine where
  cursor : Cursor
  /-- The token before. -/
  previous : Marker
  stack : Stacks

namespace Machine

/-- The state before the first token of a line.  An operand is due, as behind an open
parenthesis. -/
def start (c : Cursor) : Machine :=
  ⟨c, .openParen, .empty⟩

/-- Accepts the beginning of an operand. -/
def expectOperand (s : Machine) : Except ExpressionError Unit :=
  if s.previous.endsOperand then .error (.missingOperator s.cursor.column) else .ok ()

/-- Accepts what has to follow a complete operand. -/
def expectOperandEnd (s : Machine) : Except ExpressionError Unit :=
  if s.previous.endsOperand then .ok () else .error (.missingOperand s.cursor.column)

/-- The state behind a matrix. -/
def pushMatrix (s : Machine) (a : DenseMatrix Float) (after : Cursor) : Machine :=
  ⟨after, .matrix, s.stack.pushOperand (.matrix a)⟩

/-- The state behind a number. -/
def pushScalar (s : Machine) (x : Float) (after : Cursor) : Machine :=
  ⟨after, .scalar, s.stack.pushOperand (.scalar x)⟩

/-! ### Tokens -/

/-- A matrix literal. -/
def literal (s : Machine) (after : Cursor) : Except ExpressionError Machine := do
  s.expectOperand
  let (a, after) ← after.literal s.cursor.column
  return s.pushMatrix a after

/-- An identity matrix. -/
def identity (s : Machine) (after : Cursor) : Except ExpressionError Machine := do
  s.expectOperand
  match after.order with
  | (none, _) => throw (.missingOrder s.cursor.column)
  | (some n, after) =>
    let a ← (DenseMatrix.identity n).mapError .matrix
    return s.pushMatrix a after

/-- An open parenthesis. -/
def openGroup (s : Machine) (after : Cursor) : Except ExpressionError Machine := do
  s.expectOperand
  return ⟨after, .openParen, s.stack.openGroup s.cursor.column⟩

/-- A closing parenthesis. -/
def closeGroup (s : Machine) (after : Cursor) : Except ExpressionError Machine := do
  s.expectOperandEnd
  return ⟨after, .closeParen, ← s.stack.closeGroup s.cursor.column⟩

/-- The exponent of a power and what it does to a matrix: `T` transposes, an integer raises. -/
def exponent (position : Nat) (after : Cursor) (a : DenseMatrix Float) :
    Except ExpressionError (DenseMatrix Float × Cursor) :=
  let c := after.skipBlanks
  match c.rest with
  | 'T' :: rest => .ok (a.transpose, ⟨rest, c.column + 1⟩)
  | _ =>
    match c.exponent with
    | (none, _) => .error (.invalidExponent position)
    | (some k, after) => ((a.integerPower k).mapError .matrix).map (·, after)

/-- A power of the matrix on top. -/
def power (s : Machine) (after : Cursor) : Except ExpressionError Machine :=
  match s.previous.takesPower, s.stack.operands with
  | true, .matrix a :: below => do
    let (a, after) ← exponent s.cursor.column after a
    return ⟨after, .matrix, { s.stack with operands := .matrix a :: below }⟩
  | _, _ => .error (.invalidPower s.cursor.column)

/-- A number with a minus sign, which has to stand directly before it. -/
def negative (s : Machine) (after : Cursor) : Except ExpressionError Machine :=
  if after.rest.head?.any startsNumber then do
    let (x, after) ← after.signedNumber true s.cursor.column
    return s.pushScalar x after
  else
    .error (.missingOperand s.cursor.column)

/-- A number without a sign. -/
def number (s : Machine) : Except ExpressionError Machine := do
  s.expectOperand
  let (x, after) ← s.cursor.signedNumber false s.cursor.column
  return s.pushScalar x after

/-- An operator. -/
def operator (s : Machine) (op : Operator) (after : Cursor) : Except ExpressionError Machine := do
  s.expectOperandEnd
  return ⟨after, .operator, ← s.stack.pushOperator op⟩

/-- The change that a token makes.  Its first character is `ch`, and `after` is the place behind
this character. -/
def step (s : Machine) (ch : Char) (after : Cursor) : Except ExpressionError Machine :=
  if ch = '[' then s.literal after
  else if ch = 'E' ∨ ch = 'I' then s.identity after
  else if ch = '(' then s.openGroup after
  else if ch = ')' then s.closeGroup after
  else if ch = '^' then s.power after
  else if ch = '-' ∧ s.previous.endsOperand = false then s.negative after
  else if startsNumber ch then s.number
  else
    match Operator.ofChar? ch with
    | some op => s.operator op after
    | none => .error (.unexpectedCharacter ch s.cursor.column)

/-- The value at the end of the line. -/
def finish (s : Machine) : Except ExpressionError (DenseMatrix Float) := do
  s.expectOperandEnd
  s.stack.finish

/-- The state with the blanks before the next token skipped. -/
def skipBlanks (s : Machine) : Machine :=
  { s with cursor := s.cursor.skipBlanks }

/-! ### Progress -/

section Progress

variable {s s' : Machine} {after : Cursor}

theorem literal_length_le (h : s.literal after = .ok s') :
    s'.cursor.rest.length ≤ after.rest.length := by
  obtain ⟨_, _, h⟩ := bind_eq_ok_iff.1 h
  obtain ⟨⟨a, behind⟩, literal, h⟩ := bind_eq_ok_iff.1 h
  cases h
  exact Nat.le_of_lt (Cursor.literal_length_lt literal)

theorem identity_length_le (h : s.identity after = .ok s') :
    s'.cursor.rest.length ≤ after.rest.length := by
  obtain ⟨_, _, h⟩ := bind_eq_ok_iff.1 h
  split at h
  · cases h
  · next order =>
    obtain ⟨a, _, h⟩ := bind_eq_ok_iff.1 h
    cases h
    have := after.order_length_le
    rw [order] at this
    exact this

theorem openGroup_length_le (h : s.openGroup after = .ok s') :
    s'.cursor.rest.length ≤ after.rest.length := by
  obtain ⟨_, _, h⟩ := bind_eq_ok_iff.1 h
  cases h
  exact Nat.le_refl _

theorem closeGroup_length_le (h : s.closeGroup after = .ok s') :
    s'.cursor.rest.length ≤ after.rest.length := by
  obtain ⟨_, _, h⟩ := bind_eq_ok_iff.1 h
  obtain ⟨_, _, h⟩ := bind_eq_ok_iff.1 h
  cases h
  exact Nat.le_refl _

theorem exponent_length_le {position : Nat} {a b : DenseMatrix Float} {behind : Cursor}
    (h : exponent position after a = .ok (b, behind)) :
    behind.rest.length ≤ after.rest.length := by
  refine Nat.le_trans ?_ after.skipBlanks_length_le
  unfold exponent at h
  generalize after.skipBlanks = c at *
  dsimp only at h
  split at h
  · next rest e =>
    cases h
    rw [e]
    exact Nat.le_succ _
  · split at h
    · cases h
    · next k stop e =>
      obtain ⟨_, _, h⟩ := map_eq_ok_iff.1 h
      cases h
      simpa [e] using c.exponent_length_le

theorem power_length_le (h : s.power after = .ok s') :
    s'.cursor.rest.length ≤ after.rest.length := by
  unfold power at h
  split at h
  · obtain ⟨⟨a, behind⟩, exponent, h⟩ := bind_eq_ok_iff.1 h
    cases h
    exact exponent_length_le exponent
  · cases h

theorem negative_length_le (h : s.negative after = .ok s') :
    s'.cursor.rest.length ≤ after.rest.length := by
  unfold negative at h
  split at h
  · obtain ⟨⟨x, behind⟩, number, h⟩ := bind_eq_ok_iff.1 h
    cases h
    rw [Cursor.eq_of_signedNumber_eq_ok number]
    exact after.numeral_length_le
  · cases h

theorem number_length_lt {ch : Char} {rest : List Char} (e : s.cursor.rest = ch :: rest)
    (starts : startsNumber ch) (h : s.number = .ok s') :
    s'.cursor.rest.length < s.cursor.rest.length := by
  obtain ⟨_, _, h⟩ := bind_eq_ok_iff.1 h
  obtain ⟨⟨x, behind⟩, number, h⟩ := bind_eq_ok_iff.1 h
  cases h
  rw [Cursor.eq_of_signedNumber_eq_ok number]
  exact s.cursor.numeral_length_lt e starts

theorem operator_length_le {op : Operator} (h : s.operator op after = .ok s') :
    s'.cursor.rest.length ≤ after.rest.length := by
  obtain ⟨_, _, h⟩ := bind_eq_ok_iff.1 h
  obtain ⟨_, _, h⟩ := bind_eq_ok_iff.1 h
  cases h
  exact Nat.le_refl _

/-- A token takes at least the character that it begins with. -/
theorem step_length_lt {ch : Char} (e : s.cursor.rest = ch :: after.rest)
    (h : s.step ch after = .ok s') : s'.cursor.rest.length < s.cursor.rest.length := by
  have drop : ∀ {n : Nat}, n ≤ after.rest.length → n < s.cursor.rest.length := fun le => by
    rw [e]
    exact Nat.lt_succ_of_le le
  unfold step at h
  split at h
  · exact drop (literal_length_le h)
  split at h
  · exact drop (identity_length_le h)
  split at h
  · exact drop (openGroup_length_le h)
  split at h
  · exact drop (closeGroup_length_le h)
  split at h
  · exact drop (power_length_le h)
  split at h
  · exact drop (negative_length_le h)
  split at h
  · next starts => exact number_length_lt e starts h
  · split at h
    · exact drop (operator_length_le h)
    · cases h

end Progress

/-! ### Runs -/

/-- The value of the line, from a state between two tokens on. -/
def run (s : Machine) : Except ExpressionError (DenseMatrix Float) :=
  let between := s.skipBlanks
  match _line : between.cursor.rest with
  | [] => between.finish
  | ch :: rest =>
    if ch = '\n' then
      between.finish
    else
      match _token : between.step ch ⟨rest, between.cursor.column + 1⟩ with
      | .error e => .error e
      | .ok behind => behind.run
termination_by s.cursor.rest.length
decreasing_by
  exact Nat.lt_of_lt_of_le (step_length_lt _line _token) s.cursor.skipBlanks_length_le

/-- A run, by the next character that is no blank. -/
theorem run_eq (s : Machine) :
    s.run = match s.skipBlanks.cursor.rest with
      | [] => s.skipBlanks.finish
      | ch :: rest =>
        if ch = '\n' then s.skipBlanks.finish
        else s.skipBlanks.step ch ⟨rest, s.skipBlanks.cursor.column + 1⟩ >>= run := by
  rw [run]
  split
  · next line => rw [line]
  · next ch rest line =>
    rw [line]
    dsimp only
    split
    · rfl
    · split
      · next token => rw [token]; rfl
      · next token => rw [token]; rfl

end Machine

end MatrixReckoner
