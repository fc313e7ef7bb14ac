import MatrixReckoner.DenseMatrix.Structure
import MatrixReckoner.Expression.Pass

/-!
Expressions in a text, one a line.

* `Expression.evaluate`: the value of the first line of a text;
* `Reader`, `Reader.evaluate`, `Reader.next`: line after line, with or without the blank ones;
* `Reader.evaluate_fst`, `Reader.cursor_evaluate`: an evaluation depends on nothing but the place
  where the line begins, and so does the place behind it;
* `Reader.answers`: the answers to a sequence of requests;
* `Reader.results`: the values of all lines that are not blank.
-/

namespace MatrixReckoner

/-- The value of an expression, or why it has none. -/
abbrev Evaluation := Except ExpressionError (DenseMatrix Float)

/-- The value of the expression on the first line of a text. -/
def Expression.evaluate (text : List Char) : Evaluation :=
  (Machine.start (.ofText text)).run

/-- A text whose lines are expressions, with what the last one has left behind. -/
structure Reader where
  machine : Machine

/-- What can be asked of a reader. -/
inductive Reader.Request where
  /-- The value of the next line, whatever it holds. -/
  | evaluate
  /-- The value of the next line that is not blank, if there is one. -/
  | next
  deriving DecidableEq, Repr

namespace Reader

/-- The start of a text. -/
def ofText (text : List Char) : Reader :=
  ⟨.start (.ofText text)⟩

/-- The value of the rest of the line.  Whatever comes of it, the reader goes on behind the end of
the line that the pass stops on. -/
def evaluate (r : Reader) : Evaluation × Reader :=
  match Pass.line (.start r.machine.cursor) with
  | .ok a s => (.ok a, ⟨s.moveTo s.cursor.skipLine⟩)
  | .error e s => (.error e, ⟨s.moveTo s.cursor.skipLine⟩)

/-- What the reader keeps from line to line has no effect on the value of the next. -/
theorem evaluate_fst (r : Reader) : r.evaluate.1 = (Machine.start r.machine.cursor).run := by
  have agrees := Pass.agrees_line (.start r.machine.cursor)
  unfold evaluate
  split
  · next line => rw [line] at agrees; exact agrees.eq_ok.symm
  · next line => rw [line] at agrees; exact agrees.eq_error.symm

/-- Wherever the pass stops, the reader goes on behind the line. -/
theorem cursor_evaluate (r : Reader) :
    r.evaluate.2.machine.cursor = r.machine.cursor.skipLine := by
  have agrees := Pass.agrees_line (.start r.machine.cursor)
  unfold evaluate
  split
  · next line => rw [line] at agrees; exact agrees.sameLine_of_ok.skipLine_eq
  · next line => rw [line] at agrees; exact agrees.sameLine_of_error.skipLine_eq

/-- The first place, here or on a later line, that does not hold a blank. -/
def skipBlankLines (c : Cursor) : Cursor :=
  match _line : c.skipBlanks.rest with
  | [] => c.skipBlanks
  | ch :: rest => if ch = '\n' then skipBlankLines ⟨rest, 0⟩ else c.skipBlanks
termination_by c.rest.length
decreasing_by
  have := c.skipBlanks_length_le
  rw [_line] at this
  exact this

theorem skipBlankLines_length_le (c : Cursor) :
    (skipBlankLines c).rest.length ≤ c.rest.length := by
  fun_induction skipBlankLines c with
  | case1 c => exact c.skipBlanks_length_le
  | case2 c rest line ih =>
    have := c.skipBlanks_length_le
    rw [line] at this
    exact Nat.le_trans ih (Nat.le_of_lt this)
  | case3 c => exact c.skipBlanks_length_le

/-- The reader with the blank lines before the next place skipped. -/
def skipBlanks (r : Reader) : Reader :=
  ⟨r.machine.moveTo (skipBlankLines r.machine.cursor)⟩

/-- The value of the next line that is not blank, if there is one. -/
def next (r : Reader) : Option Evaluation × Reader :=
  let r := r.skipBlanks
  if r.machine.cursor.rest = [] then
    (none, r)
  else
    let (value, r) := r.evaluate
    (some value, r)

theorem next_length_lt {r r' : Reader} {value : Evaluation} (h : r.next = (some value, r')) :
    r'.machine.cursor.rest.length < r.machine.cursor.rest.length := by
  unfold next at h
  dsimp only at h
  split at h
  · cases h
  · next remains =>
    cases h
    rw [cursor_evaluate]
    exact Nat.lt_of_lt_of_le (Cursor.skipLine_length_lt _ remains)
      (skipBlankLines_length_le r.machine.cursor)

/-- The answer to a request; a next line may be missing. -/
def answer (r : Reader) : Request → Option Evaluation × Reader
  | .evaluate =>
    let (value, r) := r.evaluate
    (some value, r)
  | .next => r.next

/-- The answers to requests in turn. -/
def answers (r : Reader) : List Request → List (Option Evaluation)
  | [] => []
  | request :: requests =>
    let (value, r) := r.answer request
    value :: r.answers requests

/-- The values of all remaining lines that are not blank. -/
def results (r : Reader) : List Evaluation :=
  match _line : r.next with
  | (none, _) => []
  | (some value, behind) => value :: behind.results
termination_by r.machine.cursor.rest.length
decreasing_by exact next_length_lt _line

end Reader

end MatrixReckoner
