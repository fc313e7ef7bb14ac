import MatrixReckoner.Proofs.Expression.Causes

/-!
Errors are found as soon as the character is read that they point at.

* `ExpressionError.FoundAt`: the errors that are found at the character that they point at.
* `Cursor.SameUpTo`: two places with the same characters behind them, up to a position of the line.
* `Cursor.SameUpTo.takes`, `Cursor.SameUpTo.skipBlanks`, `Cursor.SameUpTo.signedNumber` and so on:
  what is read before the position is read at both places.
* `Machine.FollowsUpTo`: a computation has the answer or the error of another one, if that lies
  before the position.
* `Machine.followsUpTo_step`, `Machine.HasRead.run_eq_error`: so has a token in the other text, and
  an error of a run is one of the run over the other text.
* `Expression.evaluate_eq_error_of_take`: an error of a text is one of every text with the same
  characters up to the one that the error points at.
-/

namespace MatrixReckoner

open Expression

variable {l : List Char} {p : ℕ} {e : ExpressionError}

/-! ### Errors that need no more characters -/

namespace ExpressionError

/-- The error is found at the character at the position `p` of the line `l`, before any character
behind it is read.  An open parenthesis without a partner is found at the end of the line only. -/
def FoundAt (l : List Char) (p : ℕ) : ExpressionError → Prop
  | raggedMatrix _ _ _ position | unexpectedCharacter _ position | missingOperator position
  | invalidPower position => position = p
  | unmatchedParen position => position = p ∧ l[p]? = some ')'
  | _ => False

lemma FoundAt.position?_eq (h : e.FoundAt l p) : e.position? = some p := by
  cases e with
  | raggedMatrix | unexpectedCharacter | missingOperator | invalidPower => exact congrArg some h
  | unmatchedParen => exact congrArg some h.1
  | _ => exact h.elim

lemma Operational.not_foundAt (h : e.Operational) : ¬ e.FoundAt l p :=
  fun hfound => nomatch h.1.symm.trans hfound.position?_eq

end ExpressionError

/-! ### Places -/

namespace Cursor

variable {c c' d : Cursor} {u : List Char}

lemma SameLine.column_le (h : c.SameLine c') : c.column ≤ c'.column := by
  obtain ⟨u, -, -, hcolumn⟩ := h
  omega

lemma Takes.column_le (h : c.Takes u c') : c.column ≤ c'.column :=
  (Nat.le_add_right ..).trans h.2.symm.le

/-- The places are in one column, and the same characters are behind them up to the position `p` of
the line, with the one at this position. -/
def SameUpTo (p : ℕ) (c c' : Cursor) : Prop :=
  c'.column = c.column ∧ c'.rest.take (p + 1 - c.column) = c.rest.take (p + 1 - c.column)

namespace SameUpTo

lemma refl (p : ℕ) (c : Cursor) : c.SameUpTo p c := ⟨rfl, rfl⟩

/-- A text that stands behind one place up to the position stands behind the other. -/
lemma takes (h : c.SameUpTo p c') (ht : c.Takes u d) (hd : d.column ≤ p + 1) :
    ∃ d', c'.Takes u d' ∧ d.SameUpTo p d' := by
  obtain ⟨hcolumn, hsame⟩ := h
  obtain ⟨hrest, hd'⟩ := ht
  have hle : u.length ≤ p + 1 - c.column := by omega
  have hu : c'.rest.take u.length = u := by
    have hshort := congrArg (List.take u.length) hsame
    rw [List.take_take, List.take_take, Nat.min_eq_left hle, hrest] at hshort
    simpa using hshort
  have hbehind : c.rest.drop u.length = d.rest := by rw [hrest, List.drop_left]
  refine ⟨⟨c'.rest.drop u.length, d.column⟩, ⟨?_, hd'.trans (by rw [hcolumn])⟩, rfl, ?_⟩
  · exact (List.take_append_drop u.length c'.rest).symm.trans (by rw [hu])
  · have hcount : p + 1 - d.column = p + 1 - c.column - u.length := by omega
    have hdrop := congrArg (List.drop u.length) hsame
    rw [List.drop_take, List.drop_take, hbehind] at hdrop
    rwa [hcount]

/-- The next character is the same at a place that is not behind the position. -/
lemma head?_eq (h : c.SameUpTo p c') (hp : c.column ≤ p) : c'.rest.head? = c.rest.head? := by
  obtain ⟨n, hn⟩ : ∃ n, p + 1 - c.column = n + 1 := ⟨p - c.column, by omega⟩
  have hhead := congrArg List.head? h.2
  rwa [hn, List.head?_take, List.head?_take, if_neg n.succ_ne_zero, if_neg n.succ_ne_zero] at hhead

/-! ### Scanners -/

lemma skipBlanks (h : c.SameUpTo p c') (hp : c.skipBlanks.column ≤ p) :
    c.skipBlanks.SameUpTo p c'.skipBlanks := by
  obtain ⟨b, hb, ht, hnext⟩ := skipBlanks_eq_iff.mp (rfl : c.skipBlanks = c.skipBlanks)
  obtain ⟨d, ht', hd⟩ := h.takes ht (hp.trans p.le_succ)
  have hskip : c'.skipBlanks = d := skipBlanks_eq_iff.mpr ⟨b, hb, ht', by rwa [hd.head?_eq hp]⟩
  rwa [hskip]

lemma signedNumber (h : c.SameUpTo p c') {negative : Bool} {start : ℕ} {x : Float}
    (hread : c.signedNumber negative start = .ok (x, d)) (hp : d.column ≤ p) :
    ∃ d', c'.signedNumber negative start = .ok (x, d') ∧ d.SameUpTo p d' := by
  obtain ⟨n, u, hn, ht, hover, hx⟩ := signedNumber_eq_ok_iff.mp hread
  obtain ⟨d', ht', hd⟩ := h.takes ht (hp.trans p.le_succ)
  exact ⟨d', signedNumber_eq_ok_iff.mpr ⟨n, u, hn, ht', by rwa [hd.head?_eq hp], hx⟩, hd⟩

lemma order (h : c.SameUpTo p c') {n : ℕ} (hread : c.order = (some n, d)) (hp : d.column ≤ p) :
    ∃ d', c'.order = (some n, d') ∧ d.SameUpTo p d' := by
  obtain ⟨w, hw, hne, ht, hover, hn⟩ := order_eq_some_iff.mp hread
  obtain ⟨d', ht', hd⟩ := h.takes ht (hp.trans p.le_succ)
  exact ⟨d', order_eq_some_iff.mpr ⟨w, hw, hne, ht', by rwa [hd.head?_eq hp], hn⟩, hd⟩

lemma exponent (h : c.SameUpTo p c') {k : ℤ} (hread : c.exponent = (some k, d))
    (hp : d.column ≤ p) : ∃ d', c'.exponent = (some k, d') ∧ d.SameUpTo p d' := by
  obtain ⟨u, hu, ht, hover⟩ := exponent_eq_some_iff.mp hread
  obtain ⟨d', ht', hd⟩ := h.takes ht (hp.trans p.le_succ)
  exact ⟨d', exponent_eq_some_iff.mpr ⟨u, hu, ht', by rwa [hd.head?_eq hp]⟩, hd⟩

lemma exponentAt (h : c.SameUpTo p c') {position : ℕ} {k : Option ℤ}
    (hread : Scan.exponentAt position c = .ok (k, d)) (hp : d.column ≤ p) :
    ∃ d', Scan.exponentAt position c' = .ok (k, d') ∧ d.SameUpTo p d' := by
  have hskip := h.skipBlanks
  rw [Scan.exponentAt] at hread ⊢
  generalize c.skipBlanks = c at *
  generalize c'.skipBlanks = c' at *
  split at hread
  · next htranspose =>
    obtain ⟨rest, hr⟩ := List.head?_eq_some_iff.mp htranspose
    cases hread
    have ht : c.Takes ['T'] c.bump := by
      rw [bump_eq hr (by decide)]
      exact takes_singleton_iff.mpr ⟨hr, rfl⟩
    have hle : c.column ≤ p := ht.column_le.trans hp
    obtain ⟨d, ht', hd⟩ := (hskip hle).takes ht (hp.trans p.le_succ)
    have hbump : c'.bump = d := (bump_eq ht'.1 (by decide)).trans (congrArg (mk d.rest) ht'.2.symm)
    rw [if_pos (by rw [ht'.1]; rfl), hbump]
    exact ⟨d, rfl, hd⟩
  · next hinteger =>
    split at hread
    · next k d hk =>
      cases hread
      obtain ⟨u, -, ht, -⟩ := exponent_eq_some_iff.mp hk
      have hle : c.column ≤ p := ht.column_le.trans hp
      obtain ⟨d', hk', hd⟩ := (hskip hle).exponent hk hp
      rw [if_neg (by rwa [(hskip hle).head?_eq hle]), hk']
      exact ⟨d', rfl, hd⟩
    · cases hread

/-! ### Literals -/

lemma literalToken (h : c.SameUpTo p c') {start : ℕ} {t : LiteralToken}
    (hread : c.literalToken start = .ok (t, d)) (hp : d.column ≤ p + 1)
    (hentry : ∀ x, t = .entry x → d.column ≤ p) :
    ∃ d', c'.literalToken start = .ok (t, d') ∧ d.SameUpTo p d' := by
  obtain ⟨u, hu, ht⟩ := literalToken_eq_ok_iff.mp hread
  obtain ⟨d', ht', hd⟩ := h.takes ht hp
  have hu' : TokenSpelled c'.column t u d'.rest := by
    rw [h.1]
    cases hu with
    | entry hb hd' hover => exact .entry hb hd' (by rwa [hd.head?_eq (hentry _ rfl)])
    | rowEnd hb => exact .rowEnd hb
    | close hb => exact .close hb
  exact ⟨d', literalToken_eq_ok_iff.mpr ⟨u, hu', ht'⟩, hd⟩

/-- The part of a literal that ends a row is one character, behind blanks. -/
lemma columns_of_rowEnd {start position : ℕ} {t : LiteralToken}
    (hread : c.literalToken start = .ok (t, d)) (ht : t = .rowEnd position ∨ t = .close position) :
    c.column ≤ position ∧ d.column = position + 1 ∧ ∀ x, t = .entry x → d.column ≤ position := by
  obtain ⟨u, hu, htakes⟩ := literalToken_eq_ok_iff.mp hread
  obtain ⟨-, hd⟩ := htakes
  rcases ht with rfl | rfl <;> cases hu <;> refine ⟨Nat.le_add_right .., ?_, nofun⟩ <;>
    rw [hd, List.length_append] <;> rfl

lemma literal (h : c.SameUpTo p c') {start : ℕ} {a : DenseMatrix Float}
    (hread : c.literal start = .ok (a, d)) (hp : d.column ≤ p) :
    ∃ d', c'.literal start = .ok (a, d') ∧ d.SameUpTo p d' := by
  obtain ⟨n, rows, u, -, hn, hrows, ht⟩ := exists_of_literal_eq_ok hread
  obtain ⟨d', ht', hd⟩ := h.takes ht (hp.trans p.le_succ)
  rw [literal_eq hrows hn ht, map_eq_ok_iff] at hread
  obtain ⟨b, hb, hpair⟩ := hread
  cases hpair
  exact ⟨d', by rw [literal_eq hrows hn ht', hb]; rfl, hd⟩

/-! ### Refused literals -/

section Refused

variable (he : e.FoundAt l p)

include he

/-- A number without a digit is found behind the number. -/
lemma signedNumber_ne {negative : Bool} {start : ℕ} : c.signedNumber negative start ≠ .error e := by
  intro hread
  obtain ⟨rfl, -⟩ := (meets_signedNumber c negative start).of_eq_error hread
  exact he.elim

lemma literalToken_error (h : c.SameUpTo p c') {start : ℕ}
    (hread : c.literalToken start = .error e) :
    c.column ≤ p ∧ c'.literalToken start = .error e := by
  have hnumber : ∀ {c : Cursor} {negative : Bool} {start : ℕ} {f : Float × Cursor → _},
      (c.signedNumber negative start).map f ≠ (.error e : Except _ (LiteralToken × Cursor)) := by
    intro c negative start f hmap
    cases hread : c.signedNumber negative start with
    | ok q => rw [hread] at hmap; cases hmap
    | error e' => rw [hread] at hmap; cases hmap; exact signedNumber_ne he hread
  have hle : c.column ≤ c.skipBlanks.column := c.sameLine_skipBlanks.column_le
  have hskip := h.skipBlanks
  rw [Cursor.literalToken] at hread ⊢
  generalize c.skipBlanks = c at *
  generalize c'.skipBlanks = c' at *
  dsimp only at hread ⊢
  split at hread
  · cases hread
    exact he.elim
  · next ch rest hr =>
    split_ifs at hread with hend hrow hclose hminus hdigit hstarts
    · cases hread
      exact he.elim
    · exact absurd hread hnumber
    · cases hread
      exact he.elim
    · exact absurd hread hnumber
    · cases hread
      obtain rfl : c.column = p := he
      obtain ⟨rest', hr'⟩ := List.head?_eq_some_iff.mp
        (((hskip le_rfl).head?_eq le_rfl).trans (by rw [hr]; rfl))
      refine ⟨hle, ?_⟩
      rw [hr']
      simp only [hend, hrow, hclose, hminus, hstarts, (hskip le_rfl).1]
      rfl

lemma eq_of_endRow_eq_error {s : LiteralRows} {position : ℕ} (h : s.endRow position = .error e) :
    position = p := by
  rw [LiteralRows.endRow] at h
  split at h
  · cases h
  · cases h
    exact he

/-- A row of another length is found at its end, and a character that begins no part of a literal is
found there. -/
lemma literalFrom_error (h : c.SameUpTo p c') {start : ℕ} {s : LiteralRows}
    (hread : c.literalFrom start s = .error e) :
    c.column ≤ p ∧ c'.literalFrom start s = .error e := by
  have hbefore : ∀ {c d : Cursor} {t : LiteralToken}, c.literalToken start = .ok (t, d) →
      c.column ≤ d.column := fun hread => by
    obtain ⟨u, -, ht⟩ := literalToken_eq_ok_iff.mp hread
    exact ht.column_le
  -- The part that ends a row is read from the shared text even where nothing behind it is shared.
  have hends : ∀ {c c' d : Cursor} {t : LiteralToken} {s : LiteralRows} {position : ℕ},
      c.SameUpTo p c' → c.literalToken start = .ok (t, d) →
      t = .rowEnd position ∨ t = .close position → s.endRow position = .error e →
      c.column ≤ p ∧ ∃ d', c'.literalToken start = .ok (t, d') := by
    intro c c' d t s position h hread ht hrow
    obtain rfl := eq_of_endRow_eq_error he hrow
    obtain ⟨hle, hd, hentry⟩ := columns_of_rowEnd hread ht
    obtain ⟨d', htoken', -⟩ := h.literalToken hread hd.le hentry
    exact ⟨hle, d', htoken'⟩
  fun_induction Cursor.literalFrom start s c generalizing c' with
  | case1 s c e' htoken =>
    cases hread
    obtain ⟨hle, htoken'⟩ := h.literalToken_error he htoken
    exact ⟨hle, by rw [literalFrom_eq, htoken']; rfl⟩
  | case2 s c x d htoken ih =>
    obtain ⟨hle, -⟩ := ih (.refl p d) hread
    obtain ⟨d', htoken', hd⟩ := h.literalToken htoken (hle.trans p.le_succ) fun _ _ => hle
    refine ⟨(hbefore htoken).trans hle, ?_⟩
    rw [literalFrom_eq, htoken']
    exact (ih hd hread).2
  | case3 s c position d htoken e' hrow =>
    cases hread
    obtain ⟨hle, d', htoken'⟩ := hends h htoken (Or.inl rfl) hrow
    refine ⟨hle, ?_⟩
    rw [literalFrom_eq, htoken']
    dsimp only [bind, Except.bind]
    rw [hrow]
  | case4 s c position d htoken s' hrow ih =>
    obtain ⟨hle, -⟩ := ih (.refl p d) hread
    obtain ⟨d', htoken', hd⟩ := h.literalToken htoken (hle.trans p.le_succ) fun _ _ => hle
    refine ⟨(hbefore htoken).trans hle, ?_⟩
    rw [literalFrom_eq, htoken']
    dsimp only [bind, Except.bind]
    rw [hrow]
    exact (ih hd hread).2
  | case5 s c position d htoken =>
    rcases bind_eq_error_iff.mp hread with hrow | ⟨s', -, hread⟩
    · obtain ⟨hle, d', htoken'⟩ := hends h htoken (Or.inr rfl) hrow
      refine ⟨hle, ?_⟩
      rw [literalFrom_eq, htoken']
      dsimp only [bind, Except.bind]
      rw [hrow]
    · rcases bind_eq_error_iff.mp hread with hmatrix | ⟨a, -, hread⟩
      · obtain ⟨cause, -, rfl⟩ := mapError_eq_error_iff.mp hmatrix
        exact he.elim
      · cases hread

end Refused

end SameUpTo

end Cursor

/-! ### Tokens -/

namespace Machine

/-- The second computation, over a text that is the same up to the position `p`, has the answer of
the first one, if that does not go on behind the position, and its error, if that is `e`, which is
then not found before the column. -/
structure FollowsUpTo (p : ℕ) (e : ExpressionError) (column : ℕ)
    (x y : Except ExpressionError Machine) : Prop where
  ok : ∀ s, x = .ok s → s.cursor.column ≤ p → ∃ c, y = .ok (s.moveTo c) ∧ s.cursor.SameUpTo p c
  error : x = .error e → column ≤ p ∧ y = .error e

variable {s : Machine} {c after after' : Cursor}

/-- What precedes both computations is the same computation. -/
lemma FollowsUpTo.bind {α : Type} {column : ℕ} {z : Except ExpressionError α}
    {f g : α → Except ExpressionError Machine} (hz : z = .error e → column ≤ p)
    (hfg : ∀ a, FollowsUpTo p e column (f a) (g a)) :
    FollowsUpTo p e column (z >>= f) (z >>= g) := by
  cases z with
  | ok a => exact hfg a
  | error e' => exact ⟨nofun, fun h => ⟨hz (by cases h; rfl), h⟩⟩

lemma followsUpTo_ok {column : ℕ} (h : s.cursor.SameUpTo p c) :
    FollowsUpTo p e column (.ok s) (.ok (s.moveTo c)) :=
  ⟨fun s' hs _ => by cases hs; exact ⟨c, rfl, h⟩, nofun⟩

lemma followsUpTo_error {column : ℕ} {e' : ExpressionError} (h : e' = e → column ≤ p) :
    FollowsUpTo p e column (.error e') (.error e') :=
  ⟨nofun, fun he => ⟨h (by cases he; rfl), he⟩⟩

/-- What a scanner reads is worked up in the same way in both texts, without the error. -/
lemma FollowsUpTo.scan {α β : Type} {column : ℕ} {z z' : Except ExpressionError (α × Cursor)}
    (hok : ∀ a d, z = .ok (a, d) → d.column ≤ p → ∃ d', z' = .ok (a, d') ∧ d.SameUpTo p d')
    (herror : z = .error e → column ≤ p ∧ z' = .error e) {w : α → Except ExpressionError β}
    (hw : ∀ a, w a ≠ .error e) (t : β → Machine) :
    FollowsUpTo p e column (z >>= fun q => w q.1 >>= fun b => .ok ((t b).moveTo q.2))
      (z' >>= fun q => w q.1 >>= fun b => .ok ((t b).moveTo q.2)) where
  ok := by
    intro s hs hp
    obtain ⟨⟨a, d⟩, hz, hs⟩ := bind_eq_ok_iff.mp hs
    obtain ⟨b, hb, hs⟩ := bind_eq_ok_iff.mp hs
    cases hs
    obtain ⟨d', hz', hd⟩ := hok a d hz hp
    exact ⟨d', bind_eq_ok_iff.mpr ⟨(a, d'), hz', bind_eq_ok_iff.mpr ⟨b, hb, rfl⟩⟩, hd⟩
  error := by
    intro hx
    rcases bind_eq_error_iff.mp hx with hz | ⟨⟨a, d⟩, -, hx⟩
    · obtain ⟨hle, hz'⟩ := herror hz
      exact ⟨hle, by rw [hz']; rfl⟩
    · rcases bind_eq_error_iff.mp hx with hb | ⟨b, -, hx⟩
      · exact absurd hb (hw a)
      · cases hx

section Tokens

variable (he : e.FoundAt l p) (hs : s.cursor.SameUpTo p c) (hafter : after.SameUpTo p after')

include hs in
lemma expectOperand_moveTo : (s.moveTo c).expectOperand = s.expectOperand := by
  simp only [expectOperand, moveTo, hs.1]

include hs in
lemma expectOperandEnd_moveTo : (s.moveTo c).expectOperandEnd = s.expectOperandEnd := by
  simp only [expectOperandEnd, moveTo, hs.1]

include he

lemma column_le_of_expectOperand (h : s.expectOperand = .error e) : s.cursor.column ≤ p := by
  rw [expectOperand] at h
  split at h
  · cases h
    exact le_of_eq he
  · cases h

lemma expectOperandEnd_ne : s.expectOperandEnd ≠ .error e := by
  intro h
  rw [expectOperandEnd] at h
  split at h
  · cases h
  · cases h
    exact he

lemma mapError_ne {α : Type} (x : Except MatrixError α) :
    x.mapError ExpressionError.matrix ≠ .error e := by
  intro h
  obtain ⟨cause, -, rfl⟩ := mapError_eq_error_iff.mp h
  exact he

lemma exponentAt_ne {position : ℕ} : Scan.exponentAt position after ≠ .error e := by
  intro hread
  rw [Scan.exponentAt] at hread
  split at hread
  · cases hread
  · split at hread
    · cases hread
    · cases hread
      exact he

lemma raised_ne (a : DenseMatrix Float) (k : Option ℤ) : Pass.raised a k ≠ .error e := by
  cases k with
  | none => nofun
  | some k => exact mapError_ne he _

include hs

lemma followsUpTo_number : FollowsUpTo p e s.cursor.column s.number (s.moveTo c).number := by
  have hcolumn : (s.moveTo c).cursor.column = s.cursor.column := hs.1
  rw [number, number, expectOperand_moveTo hs, hcolumn]
  refine .bind (column_le_of_expectOperand he) fun _ => ?_
  exact .scan (w := .ok) (fun x d => hs.signedNumber)
    (fun hread => absurd hread (Cursor.SameUpTo.signedNumber_ne he)) (fun _ h => by cases h)
    (s.pushScalar · c)

include hafter

lemma followsUpTo_literal (hle : s.cursor.column ≤ after.column) :
    FollowsUpTo p e s.cursor.column (s.literal after) ((s.moveTo c).literal after') := by
  have hcolumn : (s.moveTo c).cursor.column = s.cursor.column := hs.1
  rw [literal, literal, expectOperand_moveTo hs, hcolumn]
  refine .bind (column_le_of_expectOperand he) fun _ => ?_
  refine .scan (w := .ok) (fun a d => hafter.literal) (fun hread => ?_) (fun _ h => by cases h)
    (s.pushMatrix · c)
  exact (hafter.literalFrom_error he hread).imp_left hle.trans

lemma followsUpTo_identity :
    FollowsUpTo p e s.cursor.column (s.identity after) ((s.moveTo c).identity after') := by
  have hcolumn : (s.moveTo c).cursor.column = s.cursor.column := hs.1
  rw [Pass.identity_eq, Pass.identity_eq, expectOperand_moveTo hs, hcolumn]
  refine .bind (column_le_of_expectOperand he) fun _ => ?_
  refine .scan (w := fun n => (DenseMatrix.identity n).mapError .matrix) (fun n d hread hp => ?_)
    (fun hread => ?_) (fun n => mapError_ne he _) (s.pushMatrix · c)
  · unfold Scan.orderAt at hread ⊢
    split at hread
    · next hsome =>
      cases hread
      obtain ⟨d', hread', hd⟩ := hafter.order hsome hp
      rw [hread']
      exact ⟨d', rfl, hd⟩
    · cases hread
  · rw [Scan.orderAt] at hread
    split at hread
    · cases hread
    · cases hread
      exact he.elim

lemma followsUpTo_power :
    FollowsUpTo p e s.cursor.column (s.power after) ((s.moveTo c).power after') := by
  obtain ⟨c₀, previous, operands, pending⟩ := s
  obtain ⟨hcolumn, -⟩ := hs
  unfold power moveTo
  dsimp only at hcolumn ⊢
  rw [hcolumn]
  split
  · next a below _ =>
    rw [Pass.exponent_eq, Pass.exponent_eq, bind_assoc, bind_assoc]
    simp only [bind_assoc]
    exact .scan (fun k d => hafter.exponentAt) (fun hread => absurd hread (exponentAt_ne he))
      (raised_ne he a) fun b => ⟨c₀, .matrix, ⟨.matrix b :: below, pending⟩⟩
  · exact followsUpTo_error fun h => by cases h; exact le_of_eq he

/-- Whether a number follows a minus sign is known at the character behind the sign, but the error
that there is none is not found at the sign. -/
lemma followsUpTo_negative :
    FollowsUpTo p e s.cursor.column (s.negative after) ((s.moveTo c).negative after') where
  ok := by
    intro s' h hp
    have hcolumn : (s.moveTo c).cursor.column = s.cursor.column := hs.1
    rw [negative] at h ⊢
    rw [hcolumn]
    split at h
    · next hstarts =>
      obtain ⟨⟨x, d⟩, hread, h⟩ := bind_eq_ok_iff.mp h
      cases h
      obtain ⟨n, u, -, ht, -⟩ := Cursor.signedNumber_eq_ok_iff.mp hread
      have hle : after.column ≤ p := ht.column_le.trans hp
      obtain ⟨d', hread', hd⟩ := hafter.signedNumber hread hp
      rw [if_pos (by rwa [hafter.head?_eq hle]), hread']
      exact ⟨d', rfl, hd⟩
    · cases h
  error := by
    intro h
    rw [negative] at h
    split at h
    · rcases bind_eq_error_iff.mp h with hread | ⟨q, -, h⟩
      · exact absurd hread (Cursor.SameUpTo.signedNumber_ne he)
      · cases h
    · cases h
      exact he.elim

lemma followsUpTo_openGroup :
    FollowsUpTo p e s.cursor.column (s.openGroup after) ((s.moveTo c).openGroup after') := by
  have hcolumn : (s.moveTo c).cursor.column = s.cursor.column := hs.1
  rw [openGroup, openGroup, expectOperand_moveTo hs, hcolumn]
  exact .bind (column_le_of_expectOperand he) fun _ => followsUpTo_ok hafter

lemma followsUpTo_closeGroup :
    FollowsUpTo p e s.cursor.column (s.closeGroup after) ((s.moveTo c).closeGroup after') := by
  have hcolumn : (s.moveTo c).cursor.column = s.cursor.column := hs.1
  rw [closeGroup, closeGroup, expectOperandEnd_moveTo hs, hcolumn]
  refine .bind (fun h => absurd h (expectOperandEnd_ne he)) fun _ =>
    .bind (fun h => ?_) fun stack => followsUpTo_ok hafter
  rcases (Stacks.opens_closeGroup s.stack s.cursor.column).of_eq_error h with hop | ⟨rfl, -⟩
  · exact absurd he hop.not_foundAt
  · exact le_of_eq he.1

lemma followsUpTo_operator (op : Operator) :
    FollowsUpTo p e s.cursor.column (s.operator op after) ((s.moveTo c).operator op after') := by
  rw [operator, operator, expectOperandEnd_moveTo hs]
  refine .bind (fun h => absurd h (expectOperandEnd_ne he)) fun _ =>
    .bind (fun h => ?_) fun stack => followsUpTo_ok hafter
  exact absurd he ((Stacks.opens_pushOperator s.stack op).of_eq_error h).not_foundAt

/-- **A token in the other text** has the answer that it has in the first one, or the error. -/
theorem followsUpTo_step (ch : Char) (hle : s.cursor.column ≤ after.column) :
    FollowsUpTo p e s.cursor.column (s.step ch after) ((s.moveTo c).step ch after') := by
  have hprevious : (s.moveTo c).previous = s.previous := rfl
  have hcolumn : (s.moveTo c).cursor.column = s.cursor.column := hs.1
  rw [step, step, hprevious]
  split_ifs
  · exact followsUpTo_literal he hs hafter hle
  · exact followsUpTo_identity he hs hafter
  · exact followsUpTo_openGroup he hs hafter
  · exact followsUpTo_closeGroup he hs hafter
  · exact followsUpTo_power he hs hafter
  · exact followsUpTo_negative he hs hafter
  · exact followsUpTo_number he hs
  · cases Operator.ofChar? ch with
    | some op => exact followsUpTo_operator he hs hafter op
    | none =>
        rw [hcolumn]
        exact followsUpTo_error fun h => by cases h; exact le_of_eq he

end Tokens

/-! ### Runs -/

/-- At the end of the line nothing is found at a character. -/
lemma HasRead.not_foundAt_finish (h : s.HasRead l) (hfinish : s.finish = .error e) :
    ¬ e.FoundAt l p := by
  intro he
  rcases bind_eq_error_iff.mp hfinish with hend | ⟨_, -, hstack⟩
  · exact expectOperandEnd_ne he hend
  · rcases (Stacks.opens_finish s.stack).of_eq_error hstack with hop | ⟨rfl, -⟩ | ⟨q, ps, rfl, hq⟩
    · exact hop.not_foundAt he
    · exact he
    · obtain ⟨v, ⟨htext, -⟩, hopened⟩ := h
      rw [hq] at hopened
      obtain ⟨rfl, hclose⟩ := he
      have hl : l = v ++ s.cursor.rest := htext
      cases hopened with
      | cons hu hv => simp [hl] at hclose

/-- A run over the other text goes on with the same token, behind the same blanks. -/
lemma run_moveTo {ch : Char} {rest : List Char} (hs : s.cursor.SameUpTo p c)
    (hp : s.skipBlanks.cursor.column ≤ p) (hr : s.skipBlanks.cursor.rest = ch :: rest)
    (hne : ch ≠ '\n') :
    ∃ after', Cursor.SameUpTo p ⟨rest, s.skipBlanks.cursor.column + 1⟩ after' ∧
      s.skipBlanks.cursor.SameUpTo p c.skipBlanks ∧
      (s.moveTo c).run = (s.skipBlanks.moveTo c.skipBlanks).step ch after' >>= run := by
  have hskip := hs.skipBlanks hp
  have ht : s.skipBlanks.cursor.Takes [ch] ⟨rest, s.skipBlanks.cursor.column + 1⟩ :=
    Cursor.takes_singleton_iff.mpr ⟨hr, rfl⟩
  obtain ⟨after', ht', hafter⟩ := hskip.takes ht (Nat.succ_le_succ hp)
  refine ⟨after', hafter, hskip, ?_⟩
  have hrest : (s.moveTo c).skipBlanks.cursor.rest = ch :: after'.rest := ht'.1
  have hcolumn : (s.moveTo c).skipBlanks.cursor.column + 1 = after'.column := ht'.2.symm
  rw [run_eq, hrest]
  dsimp only
  rw [if_neg hne, hcolumn]
  rfl

/-- **An error is found eagerly**: a run that fails at a position fails in the same way in every
text that is the same up to this position. -/
theorem HasRead.run_eq_error (h : s.HasRead l) (he : e.FoundAt l p) (hrun : s.run = .error e) :
    s.cursor.column ≤ p ∧ ∀ c, s.cursor.SameUpTo p c → (s.moveTo c).run = .error e := by
  have hskip : ∀ s : Machine, s.cursor.column ≤ s.skipBlanks.cursor.column :=
    fun s => s.cursor.sameLine_skipBlanks.column_le
  fun_induction Machine.run s with
  | case1 s between hline => exact absurd he (h.skipBlanks.not_foundAt_finish hrun)
  | case2 s between rest hline => exact absurd he (h.skipBlanks.not_foundAt_finish hrun)
  | case3 s between ch rest hline hne e' htoken =>
    cases hrun
    obtain ⟨hle, -⟩ := (followsUpTo_step he (.refl p between.cursor) (.refl p _) ch
      (Nat.le_succ _)).error htoken
    refine ⟨(hskip s).trans hle, fun c hs => ?_⟩
    obtain ⟨after', hafter, hbetween, hrun⟩ := run_moveTo hs hle hline hne
    obtain ⟨-, htoken'⟩ := (followsUpTo_step he hbetween hafter ch (Nat.le_succ _)).error htoken
    rw [hrun, htoken']
    rfl
  | case4 s between ch rest hline hne behind htoken ih =>
    obtain ⟨hle, hfurther⟩ := ih ((h.skipBlanks.step hline).of_eq_ok htoken) hrun
    have hbetween : between.cursor.column ≤ p :=
      (sameLine_of_step hline hne htoken).column_le.trans hle
    refine ⟨(hskip s).trans hbetween, fun c hs => ?_⟩
    obtain ⟨after', hafter, hplace, hrun'⟩ := run_moveTo hs hbetween hline hne
    obtain ⟨c', htoken', hbehind⟩ :=
      (followsUpTo_step he hplace hafter ch (Nat.le_succ _)).ok behind htoken hle
    rw [hrun', htoken']
    exact hfurther c' hbehind

end Machine

/-! ### Texts -/

namespace Expression

/-- **Failing is eager.**  An error that is found at the character that it points at is the error of
every text with the same characters up to that one. -/
theorem evaluate_eq_error_of_take {l l' : List Char} {p : ℕ} {e : ExpressionError}
    (h : evaluate l = .error e) (he : e.FoundAt l p) (hsame : l'.take (p + 1) = l.take (p + 1)) :
    evaluate l' = .error e :=
  ((Machine.hasRead_start l).run_eq_error he h).2 (.ofText l') ⟨rfl, hsame⟩

/-- An operator is missing before the last number of `(E2 + 1 2) * 3`, the second row of
`[1 2;3]) + 4` is too short, and the second closing parenthesis of `(2)*3) + 4` closes
nothing, whatever is behind these characters. -/
theorem evaluate_eq_error_of_take_of_rest :
    (evaluate "(E2 + 1 2) * 3".toList = .error (.missingOperator 8) ∧
      evaluate "(E2 + 1 2\n[".toList = .error (.missingOperator 8)) ∧
    (evaluate "[1 2;3]) + 4".toList = .error (.raggedMatrix 1 2 1 6) ∧
      evaluate "[1 2;3]^T".toList = .error (.raggedMatrix 1 2 1 6)) ∧
    (evaluate "(2)*3) + 4".toList = .error (.unmatchedParen 5) ∧
      evaluate "(2)*3)(".toList = .error (.unmatchedParen 5)) := by
  have hnumber : evaluate "(E2 + 1 2) * 3".toList = .error (.missingOperator 8) := by
    decide +kernel
  have hrow : evaluate "[1 2;3]) + 4".toList = .error (.raggedMatrix 1 2 1 6) := by decide +kernel
  have hclose : evaluate "(2)*3) + 4".toList = .error (.unmatchedParen 5) := by decide +kernel
  exact ⟨⟨hnumber, evaluate_eq_error_of_take (p := 8) hnumber rfl (by decide)⟩,
    ⟨hrow, evaluate_eq_error_of_take (p := 6) hrow rfl (by decide)⟩,
    hclose, evaluate_eq_error_of_take (p := 5) hclose ⟨rfl, rfl⟩ (by decide)⟩

end Expression

end MatrixReckoner
