import MatrixReckoner.Number.Decimal
import MatrixReckoner.Character

/-!
A place in a text, and the scanners that start there.  A scanner takes the longest piece of its form
and answers it with the place behind it; no piece contains the end of a line.

* `Cursor`: the characters that follow, and the column;
* `Cursor.bump`: the place behind one character;
* `Cursor.SameLine`: places further on in the line, of which there are none behind its end;
* `Cursor.span`, `Cursor.skipBlanks`, `Cursor.skipLine`: runs of characters, blanks, a line;
* `Cursor.numeral`, `Cursor.order`, `Cursor.exponent`: numbers and the suffixes of identities and
  powers;
* the lemmas `Cursor.sameLine_span` and so on: a scanner stops further on in the line, and a number
  takes at least one character;
* `Cursor.SameLine.skipLine_eq`: what is behind a line is behind all its places.
-/

namespace MatrixReckoner

/-- A place in a text. -/
structure Cursor where
  /-- The characters from this place on. -/
  rest : List Char
  /-- The number of characters between the start of the line and this place. -/
  column : Nat
  deriving DecidableEq, Repr

/-- Whether a character can begin a number. -/
def startsNumber (c : Char) : Bool :=
  c.isDigit || c == '.'

namespace Cursor

/-- The start of a text. -/
def ofText (text : List Char) : Cursor :=
  ⟨text, 0⟩

/-- The place behind the next character.  Behind the end of a line the columns begin anew. -/
def bump (c : Cursor) : Cursor :=
  match c.rest with
  | [] => c
  | ch :: rest => ⟨rest, if ch = '\n' then 0 else c.column + 1⟩

theorem bump_eq {c : Cursor} {ch : Char} {rest : List Char} (e : c.rest = ch :: rest)
    (h : ch ≠ '\n') : c.bump = ⟨rest, c.column + 1⟩ := by
  simp [bump, e, h]

/-! ### Places on one line -/

/-- The second place is on the line of the first, and not before it. -/
def SameLine (c c' : Cursor) : Prop :=
  ∃ run : List Char, '\n' ∉ run ∧ c.rest = run ++ c'.rest ∧ c'.column = c.column + run.length

namespace SameLine

variable {c c' c'' : Cursor}

theorem refl (c : Cursor) : c.SameLine c :=
  ⟨[], by simp, rfl, rfl⟩

theorem trans (h : c.SameLine c') (h' : c'.SameLine c'') : c.SameLine c'' := by
  obtain ⟨run, stays, rest, column⟩ := h
  obtain ⟨run', stays', rest', column'⟩ := h'
  refine ⟨run ++ run', by simp [stays, stays'], by rw [rest, rest', List.append_assoc], ?_⟩
  rw [column', column, List.length_append, Nat.add_assoc]

theorem length_le (h : c.SameLine c') : c'.rest.length ≤ c.rest.length := by
  obtain ⟨run, _, rest, _⟩ := h
  rw [rest, List.length_append]
  exact Nat.le_add_left ..

end SameLine

theorem sameLine_bump {c : Cursor} {ch : Char} {rest : List Char} (e : c.rest = ch :: rest)
    (h : ch ≠ '\n') : c.SameLine c.bump := by
  rw [bump_eq e h]
  exact ⟨[ch], by simpa using h.symm, e, rfl⟩

/-! ### Runs of characters -/

/-- The longest run of characters of a class, and the place behind it. -/
def span (p : Char → Bool) (c : Cursor) : List Char × Cursor :=
  let run := c.rest.takeWhile p
  (run, ⟨c.rest.dropWhile p, c.column + run.length⟩)

theorem sameLine_span {p : Char → Bool} (h : p '\n' = false) (c : Cursor) :
    c.SameLine (c.span p).2 := by
  refine ⟨c.rest.takeWhile p, fun newline => ?_, List.takeWhile_append_dropWhile.symm, rfl⟩
  exact absurd (List.all_eq_true.1 List.all_takeWhile _ newline) (by simp [h])

/-- The next place that does not hold a blank, on this line. -/
def skipBlanks (c : Cursor) : Cursor :=
  (c.span isInlineBlank).2

theorem sameLine_skipBlanks (c : Cursor) : c.SameLine c.skipBlanks :=
  sameLine_span (by decide) c

theorem skipBlanks_length_le (c : Cursor) : c.skipBlanks.rest.length ≤ c.rest.length :=
  c.sameLine_skipBlanks.length_le

/-- The start of the next line, or the end of the text. -/
def skipLine (c : Cursor) : Cursor :=
  let (_, stop) := c.span (· != '\n')
  match stop.rest with
  | [] => stop
  | _ :: rest => ⟨rest, 0⟩

theorem skipLine_length_lt (c : Cursor) (h : c.rest ≠ []) :
    c.skipLine.rest.length < c.rest.length := by
  unfold skipLine span
  dsimp only
  split
  · next e => rw [e]; exact List.length_pos_iff.2 h
  · next e =>
    have := (List.dropWhile_sublist (l := c.rest) (· != '\n')).length_le
    rw [e] at this
    exact this

/-- What is behind a line does not depend on the place of the line that it is reached from. -/
theorem SameLine.skipLine_eq {c c' : Cursor} (h : c.SameLine c') : c'.skipLine = c.skipLine := by
  obtain ⟨run, stays, rest, column⟩ := h
  have inLine : ∀ ch ∈ run, (ch != '\n') = true := fun ch hch => by
    simpa using fun e : ch = '\n' => stays (e ▸ hch)
  unfold skipLine span
  dsimp only
  rw [rest, List.takeWhile_append_of_pos inLine, List.dropWhile_append_of_pos inLine,
    List.length_append, column, Nat.add_assoc]

/-! ### Numbers -/

/-- The digits here and, behind a point, the digits after it. -/
def numeral (c : Cursor) : Numeral × Cursor :=
  let (whole, c) := c.span Char.isDigit
  match c.rest with
  | '.' :: rest =>
    let (fraction, c) := (Cursor.mk rest (c.column + 1)).span Char.isDigit
    (⟨whole, fraction⟩, c)
  | _ => (⟨whole, []⟩, c)

theorem sameLine_numeral (c : Cursor) : c.SameLine c.numeral.2 := by
  have whole := sameLine_span (p := Char.isDigit) (by decide) c
  unfold numeral
  generalize c.span Char.isDigit = s at *
  obtain ⟨run, stop⟩ := s
  dsimp only at *
  split
  · next rest e =>
    have point : stop.SameLine ⟨rest, stop.column + 1⟩ := ⟨['.'], by decide, e, rfl⟩
    exact whole.trans (point.trans (sameLine_span (by decide) _))
  · exact whole

theorem numeral_length_le (c : Cursor) : c.numeral.2.rest.length ≤ c.rest.length :=
  c.sameLine_numeral.length_le

theorem numeral_length_lt (c : Cursor) {ch : Char} {rest : List Char} (e : c.rest = ch :: rest)
    (h : startsNumber ch) : c.numeral.2.rest.length < c.rest.length := by
  unfold numeral span
  dsimp only
  rw [e]
  by_cases d : ch.isDigit
  · have whole := (List.dropWhile_sublist (l := rest) Char.isDigit).length_le
    simp only [List.dropWhile_cons, d, if_true, List.length_cons]
    split
    · next tail e' =>
      have := (List.dropWhile_sublist (l := tail) Char.isDigit).length_le
      rw [e'] at whole
      simp only [List.length_cons] at *
      omega
    · exact Nat.lt_succ_of_le whole
  · have point : ch = '.' := by simpa [startsNumber, d] using h
    subst point
    have fraction := (List.dropWhile_sublist (l := rest) Char.isDigit).length_le
    simp only [List.dropWhile_cons, d, List.length_cons]
    exact Nat.lt_succ_of_le fraction

/-- The greatest order that can be written. -/
def maxOrder : Nat := Nat.pow 2 64 - 1

/-- The order of an identity matrix: digits, if there are any and their value is in range. -/
def order (c : Cursor) : Option Nat × Cursor :=
  let (digits, c) := c.span Char.isDigit
  let n := Nat.ofDigitChars 10 digits 0
  (if digits ≠ [] ∧ n ≤ maxOrder then some n else none, c)

theorem sameLine_order (c : Cursor) : c.SameLine c.order.2 :=
  sameLine_span (by decide) c

theorem order_length_le (c : Cursor) : c.order.2.rest.length ≤ c.rest.length :=
  c.sameLine_order.length_le

/-- The exponents that can be written lie from minus this limit up to but not including it. -/
def exponentLimit : Int := Int.pow 2 31

/-- The exponent of a power: a sign or none, and digits, if there are any and their value with the
sign is in range. -/
def exponent (c : Cursor) : Option Int × Cursor :=
  match c.rest with
  | '-' :: rest => unsigned ⟨rest, c.column + 1⟩ (-1)
  | '+' :: rest => unsigned ⟨rest, c.column + 1⟩ 1
  | _ => unsigned c 1
where
  /-- The digits of an exponent behind its sign. -/
  unsigned (c : Cursor) (sign : Int) : Option Int × Cursor :=
    let (digits, c) := c.span Char.isDigit
    let k := sign * Nat.ofDigitChars 10 digits 0
    (if digits ≠ [] ∧ -exponentLimit ≤ k ∧ k < exponentLimit then some k else none, c)

theorem sameLine_exponent (c : Cursor) : c.SameLine c.exponent.2 := by
  unfold exponent
  split
  · next rest e =>
    have sign : c.SameLine ⟨rest, c.column + 1⟩ := ⟨['-'], by decide, e, rfl⟩
    exact sign.trans (sameLine_span (by decide) _)
  · next rest e =>
    have sign : c.SameLine ⟨rest, c.column + 1⟩ := ⟨['+'], by decide, e, rfl⟩
    exact sign.trans (sameLine_span (by decide) _)
  · exact sameLine_span (by decide) c

theorem exponent_length_le (c : Cursor) : c.exponent.2.rest.length ≤ c.rest.length :=
  c.sameLine_exponent.length_le

end Cursor

end MatrixReckoner
