import MatrixReckoner.Element.Basic
import MatrixReckoner.Expression.Literal

/-!
Scanners that move a cursor.  One that refuses leaves the cursor behind the last character that it
took, so that whoever goes on from there has to know where that can be.

* `Scan`, with `Scan.number`, `Scan.order`, `Scan.exponent`, `Scan.literal`: the longer tokens;
* `Agrees`: a computation with a state says what one without says, and its state stays on its line
  whether it answers or refuses;
* `Agrees.bind`, `Agrees.modify_bind` and so on: computations in sequence;
* `Scan.orderAt`, `Scan.exponentAt`: two of the scanners as functions of the place;
* `Scan.agrees_number`, `Scan.agrees_order`, `Scan.agrees_exponent`, `Scan.agrees_literal`: what the
  scanners say.
-/

namespace MatrixReckoner

/-- A scanner: an answer or a refusal, and the place where it stops. -/
abbrev Scan := EStateM ExpressionError Cursor

/-! ### Agreement -/

section Agreement

variable {σ α β γ δ : Type} {place : σ → Cursor} {answer : α → σ → γ} {s s' : σ}

/-- A computation that starts in the state `s` and ends as the first result agrees with the second
result: it fails exactly if that is a failure, for the same cause, and otherwise the answer and the
state that it leaves say what that says.  In both cases the state stays on its line. -/
inductive Agrees (place : σ → Cursor) (answer : α → σ → γ) (s : σ) :
    EStateM.Result ExpressionError σ α → Except ExpressionError γ → Prop where
  | ok {a : α} {s' : σ} (stays : (place s).SameLine (place s')) :
    Agrees place answer s (.ok a s') (.ok (answer a s'))
  | error {e : ExpressionError} {s' : σ} (stays : (place s).SameLine (place s')) :
    Agrees place answer s (.error e s') (.error e)

namespace Agrees

theorem pure (a : α) : Agrees place answer s ((Pure.pure a : EStateM _ σ α) s) (.ok (answer a s)) :=
  .ok (.refl _)

theorem throw (e : ExpressionError) :
    Agrees place answer s ((MonadExcept.throw e : EStateM _ σ α) s) (.error e) :=
  .error (.refl _)

/-- Agreement from a later place on the line. -/
theorem of_sameLine {r : EStateM.Result ExpressionError σ α} {x : Except ExpressionError γ}
    (stays : (place s).SameLine (place s')) (h : Agrees place answer s' r x) :
    Agrees place answer s r x := by
  cases h with
  | ok further => exact .ok (stays.trans further)
  | error further => exact .error (stays.trans further)

theorem sameLine_of_ok {a : α} {x : Except ExpressionError γ}
    (h : Agrees place answer s (.ok a s') x) : (place s).SameLine (place s') := by
  cases h; assumption

theorem sameLine_of_error {e : ExpressionError} {x : Except ExpressionError γ}
    (h : Agrees place answer s (.error e s') x) : (place s).SameLine (place s') := by
  cases h; assumption

theorem eq_ok {a : α} {x : Except ExpressionError γ} (h : Agrees place answer s (.ok a s') x) :
    x = .ok (answer a s') := by
  cases h; rfl

theorem eq_error {e : ExpressionError} {x : Except ExpressionError γ}
    (h : Agrees place answer s (.error e s') x) : x = .error e := by
  cases h; rfl

theorem bind {p : EStateM ExpressionError σ α} {k : α → EStateM ExpressionError σ β}
    {x : Except ExpressionError γ} {y : γ → Except ExpressionError δ} {final : β → σ → δ}
    (first : Agrees place answer s (p s) x)
    (second : ∀ a s', p s = .ok a s' → Agrees place final s' (k a s') (y (answer a s'))) :
    Agrees place final s ((p >>= k) s) (x >>= y) := by
  change Agrees place final s (EStateM.bind p k s) _
  unfold EStateM.bind
  generalize p s = r at *
  cases first with
  | ok stays => exact (second _ _ rfl).of_sameLine stays
  | error stays => exact .error stays

theorem ofExcept (x : Except ExpressionError α) :
    Agrees place answer s ((MonadExcept.ofExcept x : EStateM _ σ α) s) ((answer · s) <$> x) := by
  cases x with
  | ok a => exact .pure a
  | error e => exact .throw e

theorem ofExcept_bind {x : Except ExpressionError α} {k : α → EStateM ExpressionError σ β}
    {y : α → Except ExpressionError δ} {final : β → σ → δ}
    (second : ∀ a, Agrees place final s (k a s) (y a)) :
    Agrees place final s ((MonadExcept.ofExcept x >>= k) s) (x >>= y) := by
  cases x with
  | ok a => exact second a
  | error e => exact .throw e

theorem map {p : EStateM ExpressionError σ α} {x : Except ExpressionError γ} {k : α → β}
    {g : γ → δ} {final : β → σ → δ} (first : Agrees place answer s (p s) x)
    (h : ∀ a s', final (k a) s' = g (answer a s')) :
    Agrees place final s ((p >>= fun a => Pure.pure (k a)) s) (x.map g) := by
  change Agrees place final s (EStateM.bind p _ s) _
  unfold EStateM.bind
  generalize p s = r at *
  cases first with
  | @ok a s' stays =>
    change Agrees place final s (.ok (k a) s') (.ok (g (answer a s')))
    exact h a s' ▸ .ok stays
  | error stays => exact .error stays

variable {x y : Except ExpressionError γ}

theorem ite {c : Prop} [Decidable c] {p q : EStateM ExpressionError σ α}
    (yes : c → Agrees place answer s (p s) x) (no : ¬ c → Agrees place answer s (q s) y) :
    Agrees place answer s ((if c then p else q) s) (if c then x else y) := by
  split
  · exact yes ‹_›
  · exact no ‹_›

theorem get_bind {k : σ → EStateM ExpressionError σ α} (h : Agrees place answer s (k s s) x) :
    Agrees place answer s ((get >>= k) s) x :=
  h

theorem modify_bind {f : σ → σ} {k : PUnit → EStateM ExpressionError σ α}
    (stays : (place s).SameLine (place (f s))) (h : Agrees place answer (f s) (k ⟨⟩ (f s)) x) :
    Agrees place answer s ((modify f >>= k) s) x :=
  h.of_sameLine stays

theorem modifyGet_bind {f : σ → β × σ} {k : β → EStateM ExpressionError σ α}
    (stays : (place s).SameLine (place (f s).2))
    (h : Agrees place answer (f s).2 (k (f s).1 (f s).2) x) :
    Agrees place answer s ((modifyGet f >>= k) s) x :=
  h.of_sameLine stays

end Agrees

end Agreement

namespace Scan

/-! ### Numbers -/

/-- The number that is next, negated if it follows a minus sign; `start` is the position of the sign
or of the number itself. -/
def number (negative : Bool) (start : Nat) : Scan Float := do
  let numeral ← modifyGet Cursor.numeral
  match numeral.toDouble? with
  | some x => return if negative then -x else x
  | none => throw (.missingScalar start)

/-- The order of an identity matrix that begins at `start`. -/
def order (start : Nat) : Scan Nat := do
  match ← modifyGet Cursor.order with
  | some n => return n
  | none => throw (.missingOrder start)

/-- What `order` reads and where it stops, or why it refuses. -/
def orderAt (start : Nat) (c : Cursor) : Except ExpressionError (Nat × Cursor) :=
  match c.order with
  | (some n, after) => .ok (n, after)
  | (none, _) => .error (.missingOrder start)

/-- The exponent of a power whose sign stands at `position`; there is none if it is a
transposition. -/
def exponent (position : Nat) : Scan (Option Int) := do
  modify Cursor.skipBlanks
  if (← get).rest.head? = some 'T' then
    modify Cursor.bump
    return none
  else
    match ← modifyGet Cursor.exponent with
    | some k => return some k
    | none => throw (.invalidExponent position)

/-- What `exponent` reads and where it stops, or why it refuses. -/
def exponentAt (position : Nat) (c : Cursor) : Except ExpressionError (Option Int × Cursor) :=
  let c := c.skipBlanks
  if c.rest.head? = some 'T' then
    .ok (none, c.bump)
  else
    match c.exponent with
    | (some k, after) => .ok (some k, after)
    | (none, _) => .error (.invalidExponent position)

theorem agrees_number (negative : Bool) (start : Nat) (c : Cursor) :
    Agrees id Prod.mk c (number negative start c) (c.signedNumber negative start) := by
  refine .modifyGet_bind c.sameLine_numeral ?_
  unfold Cursor.signedNumber
  dsimp only
  cases c.numeral.1.toDouble? with
  | some x => exact .pure _
  | none => exact .throw _

theorem agrees_order (start : Nat) (c : Cursor) :
    Agrees id Prod.mk c (order start c) (orderAt start c) := by
  refine .modifyGet_bind c.sameLine_order ?_
  unfold orderAt
  generalize c.order = found
  obtain ⟨_ | n, after⟩ := found
  · exact .throw _
  · exact .pure n

theorem agrees_exponent (position : Nat) (c : Cursor) :
    Agrees id Prod.mk c (exponent position c) (exponentAt position c) := by
  refine .modify_bind c.sameLine_skipBlanks (.get_bind ?_)
  unfold exponentAt
  generalize c.skipBlanks = c
  refine .ite (fun transposed => ?_) fun _ => .modifyGet_bind c.sameLine_exponent ?_
  · obtain ⟨rest, e⟩ := List.head?_eq_some_iff.1 transposed
    exact .modify_bind (Cursor.sameLine_bump e (by decide)) (.pure none)
  · generalize c.exponent = found
    obtain ⟨_ | k, after⟩ := found
    · exact .throw _
    · exact .pure (some k)

/-! ### Literals -/

/-- The next part of a literal whose opening bracket stands at `start`. -/
def literalToken (start : Nat) : Scan LiteralToken := do
  modify Cursor.skipBlanks
  let position := (← get).column
  match (← get).rest.head? with
  | none => throw (.unterminatedMatrix start)
  | some ch =>
    if ch = '\n' then
      throw (.unterminatedMatrix start)
    else if ch = ';' then
      modify Cursor.bump
      return .rowEnd position
    else if ch = ']' then
      modify Cursor.bump
      return .close position
    else if ch = '-' then
      modify Cursor.bump
      if (← get).rest.head?.any startsNumber then
        return .entry (← number true position)
      else
        throw (.missingScalar position)
    else if startsNumber ch then
      return .entry (← number false position)
    else
      throw (.unexpectedCharacter ch position)

theorem agrees_literalToken (start : Nat) (c : Cursor) :
    Agrees id Prod.mk c (literalToken start c) (c.literalToken start) := by
  refine .modify_bind c.sameLine_skipBlanks ?_
  unfold Cursor.literalToken
  generalize c.skipBlanks = c
  refine .get_bind (.get_bind ?_)
  obtain ⟨_ | ⟨ch, rest⟩, column⟩ := c
  · exact .throw _
  refine .ite (fun _ => .throw _) fun inLine => ?_
  have bumped : Cursor.bump ⟨ch :: rest, column⟩ = ⟨rest, column + 1⟩ := Cursor.bump_eq rfl inLine
  have stays := Cursor.sameLine_bump (c := ⟨ch :: rest, column⟩) rfl inLine
  refine .ite (fun _ => .modify_bind stays ?_) fun _ => ?_
  · exact bumped ▸ .pure _
  refine .ite (fun _ => .modify_bind stays ?_) fun _ => ?_
  · exact bumped ▸ .pure _
  refine .ite (fun _ => .modify_bind stays ?_) fun _ => ?_
  · rw [bumped]
    refine .get_bind (.ite (fun _ => ?_) fun _ => .throw _)
    exact (agrees_number true column _).map fun _ _ => rfl
  refine .ite (fun _ => ?_) fun _ => .throw _
  exact (agrees_number false column _).map fun _ _ => rfl

theorem literalToken_length_lt {start : Nat} {c c' : Cursor} {t : LiteralToken}
    (h : literalToken start c = .ok t c') : c'.rest.length < c.rest.length := by
  have agrees := agrees_literalToken start c
  rw [h] at agrees
  exact Cursor.literalToken_length_lt agrees.eq_ok

/-- The rest of a literal whose opening bracket stands at `start`, with the rows before it. -/
def literalFrom (start : Nat) (s : LiteralRows) : Scan (DenseMatrix Float) := fun c =>
  match _token : literalToken start c with
  | .error e c => .error e c
  | .ok (.entry x) c => literalFrom start (s.push x) c
  | .ok (.rowEnd position) c =>
    match s.endRow position with
    | .error e => .error e c
    | .ok s => literalFrom start s c
  | .ok (.close position) c =>
    (do MonadExcept.ofExcept (← MonadExcept.ofExcept (s.endRow position)).matrix : Scan _) c
termination_by c => c.rest.length
decreasing_by all_goals exact literalToken_length_lt _token

theorem literalFrom_eq (start : Nat) (s : LiteralRows) (c : Cursor) :
    literalFrom start s c = (do
      match ← literalToken start with
      | .entry x => literalFrom start (s.push x)
      | .rowEnd position => literalFrom start (← MonadExcept.ofExcept (s.endRow position))
      | .close position =>
        MonadExcept.ofExcept (← MonadExcept.ofExcept (s.endRow position)).matrix) c := by
  change _ = EStateM.bind (literalToken start) _ c
  unfold EStateM.bind
  rw [literalFrom]
  split
  · next token => rw [token]
  · next token => rw [token]
  · next token =>
    rw [token]
    dsimp only
    split <;> next row => rw [row]; rfl
  · next token => rw [token]

theorem agrees_literalFrom (start : Nat) (s : LiteralRows) (c : Cursor) :
    Agrees id Prod.mk c (literalFrom start s c) (c.literalFrom start s) := by
  rw [literalFrom_eq, Cursor.literalFrom_eq]
  refine (agrees_literalToken start c).bind fun t c' token => ?_
  have shorter := literalToken_length_lt token
  cases t with
  | entry x => exact agrees_literalFrom start (s.push x) c'
  | rowEnd position => exact .ofExcept_bind fun s => agrees_literalFrom start s c'
  | close position => exact .ofExcept_bind fun s => Agrees.ofExcept s.matrix
termination_by c.rest.length

/-- The matrix literal whose opening bracket is next. -/
def literal : Scan (DenseMatrix Float) := do
  let start := (← get).column
  modify Cursor.bump
  literalFrom start .empty

theorem agrees_literal {c : Cursor} {rest : List Char} (e : c.rest = '[' :: rest) :
    Agrees id Prod.mk c (literal c) (c.bump.literal c.column) :=
  .get_bind (.modify_bind (Cursor.sameLine_bump e (by decide)) (agrees_literalFrom ..))

end Scan

end MatrixReckoner
