import MatrixReckoner.Element.Floating
import MatrixReckoner.Expression.Cursor
import MatrixReckoner.Expression.Error
import MatrixReckoner.DenseMatrix.Basic

/-!
Matrix literals: rows of numbers between brackets, with a semicolon between rows.

* `LiteralToken`, `Cursor.literalToken`: the parts of a literal behind its opening bracket;
* `LiteralRows`: the rows read so far, with the check that all are as long as the first;
* `Cursor.literal`: the matrix that a literal denotes.
-/

namespace MatrixReckoner

/-- A part of a matrix literal. -/
inductive LiteralToken where
  /-- A number. -/
  | entry (x : Float)
  /-- The end of a row that another row follows. -/
  | rowEnd (position : Nat)
  /-- The end of the last row. -/
  | close (position : Nat)

/-- The number at a place, negated if it follows a minus sign; `start` is the position of the sign
or of the number itself. -/
def Cursor.signedNumber (c : Cursor) (negative : Bool) (start : Nat) :
    Except ExpressionError (Float × Cursor) :=
  let (numeral, after) := c.numeral
  match numeral.toDouble? with
  | some x => .ok (if negative then -x else x, after)
  | none => .error (.missingScalar start)

theorem Cursor.eq_of_signedNumber_eq_ok {c after : Cursor} {negative : Bool} {start : Nat}
    {x : Float} (h : c.signedNumber negative start = .ok (x, after)) : after = c.numeral.2 := by
  unfold Cursor.signedNumber at h
  dsimp only at h
  split at h
  · cases h; rfl
  · cases h

/-- The next part of a literal whose opening bracket stands at `start`, and the place behind it. -/
def Cursor.literalToken (start : Nat) (c : Cursor) :
    Except ExpressionError (LiteralToken × Cursor) :=
  let c := c.skipBlanks
  match c.rest with
  | [] => .error (.unterminatedMatrix start)
  | ch :: rest =>
    let after : Cursor := ⟨rest, c.column + 1⟩
    if ch = '\n' then
      .error (.unterminatedMatrix start)
    else if ch = ';' then
      .ok (.rowEnd c.column, after)
    else if ch = ']' then
      .ok (.close c.column, after)
    else if ch = '-' then
      if rest.head?.any startsNumber then
        (after.signedNumber true c.column).map fun (x, after) => (.entry x, after)
      else
        .error (.missingScalar c.column)
    else if startsNumber ch then
      (c.signedNumber false c.column).map fun (x, after) => (.entry x, after)
    else
      .error (.unexpectedCharacter ch c.column)

theorem Cursor.literalToken_length_lt {start : Nat} {c after : Cursor} {t : LiteralToken}
    (h : c.literalToken start = .ok (t, after)) : after.rest.length < c.rest.length := by
  refine Nat.lt_of_lt_of_le ?_ c.skipBlanks_length_le
  unfold Cursor.literalToken at h
  generalize c.skipBlanks = c at *
  dsimp only at h
  split at h
  · cases h
  · next ch rest e =>
    rw [e, List.length_cons]
    split at h
    · cases h
    split at h
    · cases h; exact Nat.lt_succ_self _
    split at h
    · cases h; exact Nat.lt_succ_self _
    split at h
    · split at h
      · match hs : Cursor.signedNumber ⟨rest, c.column + 1⟩ true c.column with
        | .error _ => rw [hs] at h; cases h
        | .ok (x, behind) =>
          rw [hs] at h
          cases h
          rw [Cursor.eq_of_signedNumber_eq_ok hs]
          exact Nat.lt_succ_of_le (Cursor.numeral_length_le _)
      · cases h
    split at h
    · next starts =>
      match hs : c.signedNumber false c.column with
      | .error _ => rw [hs] at h; cases h
      | .ok (x, behind) =>
        rw [hs] at h
        cases h
        rw [Cursor.eq_of_signedNumber_eq_ok hs]
        simpa [e] using c.numeral_length_lt e starts
    · cases h

/-- The rows of a literal that are read so far, the last first. -/
structure LiteralRows where
  /-- The length of the first row, once it is complete. -/
  width : Option Nat
  /-- The complete rows. -/
  rows : List (List Float)
  /-- The entries of the row being read. -/
  row : List Float

namespace LiteralRows

/-- Nothing read yet. -/
def empty : LiteralRows :=
  ⟨none, [], []⟩

/-- Another entry. -/
def push (s : LiteralRows) (x : Float) : LiteralRows :=
  { s with row := x :: s.row }

/-- The end of a row, which has to be as long as the first. -/
def endRow (s : LiteralRows) (position : Nat) : Except ExpressionError LiteralRows :=
  let width := s.width.getD s.row.length
  if s.row.length = width then
    .ok ⟨some width, s.row.reverse :: s.rows, []⟩
  else
    .error (.raggedMatrix s.rows.length width s.row.length position)

/-- The matrix of the complete rows. -/
def matrix (s : LiteralRows) : Except ExpressionError (DenseMatrix Float) :=
  (DenseMatrix.ofList s.rows.length (s.width.getD 0) s.rows.reverse.flatten).mapError .matrix

end LiteralRows

/-- The rest of a literal whose opening bracket stands at `start`, with the rows before it, and the
place behind the closing bracket. -/
def Cursor.literalFrom (start : Nat) (s : LiteralRows) (c : Cursor) :
    Except ExpressionError (DenseMatrix Float × Cursor) :=
  match _token : c.literalToken start with
  | .error e => .error e
  | .ok (.entry x, after) => literalFrom start (s.push x) after
  | .ok (.rowEnd position, after) =>
    match s.endRow position with
    | .error e => .error e
    | .ok s => literalFrom start s after
  | .ok (.close position, after) => do
    let s ← s.endRow position
    return (← s.matrix, after)
termination_by c.rest.length
decreasing_by all_goals exact Cursor.literalToken_length_lt _token

/-- The rest of a literal, by its next part. -/
theorem Cursor.literalFrom_eq (start : Nat) (s : LiteralRows) (c : Cursor) :
    c.literalFrom start s = c.literalToken start >>= fun p =>
      match p.1 with
      | .entry x => p.2.literalFrom start (s.push x)
      | .rowEnd position => s.endRow position >>= fun s => p.2.literalFrom start s
      | .close position => s.endRow position >>= fun s => (·, p.2) <$> s.matrix := by
  rw [Cursor.literalFrom]
  split
  · next token => rw [token]; rfl
  · next token => rw [token]; rfl
  · next token =>
    rw [token]
    dsimp only [bind, Except.bind]
    split <;> next row => rw [row]
  · next token =>
    rw [token]
    dsimp only [bind, Except.bind]
    split <;> rfl

/-- The matrix of a literal whose opening bracket stands just before this place, at `start`. -/
def Cursor.literal (start : Nat) (c : Cursor) :
    Except ExpressionError (DenseMatrix Float × Cursor) :=
  c.literalFrom start .empty

theorem Cursor.literalFrom_length_lt {start : Nat} {s : LiteralRows} {c after : Cursor}
    {a : DenseMatrix Float} (h : c.literalFrom start s = .ok (a, after)) :
    after.rest.length < c.rest.length := by
  fun_induction Cursor.literalFrom start s c with
  | case1 => cases h
  | case2 s c x behind token ih =>
    exact Nat.lt_trans (ih h) (Cursor.literalToken_length_lt token)
  | case3 => cases h
  | case4 s c position behind token s' row ih =>
    exact Nat.lt_trans (ih h) (Cursor.literalToken_length_lt token)
  | case5 s c position behind token =>
    have : after = behind := by
      match hs : s.endRow position with
      | .error e => rw [hs] at h; cases h
      | .ok s' =>
        match hm : s'.matrix with
        | .error e => rw [hs] at h; simp only [bind, Except.bind, hm] at h; cases h
        | .ok m => rw [hs] at h; simp only [bind, Except.bind, hm] at h; cases h; rfl
    exact this ▸ Cursor.literalToken_length_lt token

theorem Cursor.literal_length_lt {start : Nat} {c after : Cursor} {a : DenseMatrix Float}
    (h : c.literal start = .ok (a, after)) : after.rest.length < c.rest.length :=
  Cursor.literalFrom_length_lt h

end MatrixReckoner
