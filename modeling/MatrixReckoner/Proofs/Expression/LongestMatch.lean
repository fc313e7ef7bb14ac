import MatrixReckoner.Proofs.Expression.Scanning

/-!
The scanners of numbers take the longest text of their form, and nothing behind it.

* `Longest`: the longest beginning of a list with a property.
* `Cursor.collect`: characters are taken one by one as long as each is accepted, where a character
  may change what is accepted behind it; `Cursor.collect_eq` says that this takes the longest text
  whose characters are all accepted, and `Cursor.Collects` keeps this for a form of texts.
* `Numeral.Written`, `PointedDigits`, `SignedDigits`: the forms, as texts, and `accepted_digit_iff`,
  `accepted_pointed_iff`, `accepted_signed_iff`: as characters that are accepted.
* `Cursor.numeral_of_longest`, `Cursor.order_of_longest`, `Cursor.exponent_of_longest`: what is read
  from the longest text.
* `Scan.integer`, `Scan.exponent_eq`: the integer that follows the sign of a power.
* `Scan.number_zeros`, `Scan.order_zeros`, `Scan.integer_zeros`: zeros before the digits.
* `Scan.longest_match`: all answers of the scanners, and where they stop.
-/

namespace MatrixReckoner

open Expression

/-! ### Longest beginnings -/

/-- The list `u` is the longest beginning of `l` with the property `P`. -/
structure Longest {α : Type} (P : List α → Prop) (l u : List α) : Prop where
  begins : u <+: l
  holds : P u
  length_le : ∀ v, v <+: l → P v → v.length ≤ u.length

namespace Longest

variable {α : Type} {P Q : List α → Prop} {l u v : List α} {a : α}

/-- A list has one longest beginning of a kind. -/
lemma unique (h : Longest P l u) (h' : Longest P l v) : u = v := by
  have hlength : u.length = v.length :=
    le_antisymm (h'.length_le u h.begins h.holds) (h.length_le v h'.begins h'.holds)
  exact (List.prefix_of_prefix_length_le h.begins h'.begins hlength.le).eq_of_length hlength

lemma congr (h : Longest P l u) (hPQ : ∀ v, v <+: l → (P v ↔ Q v)) : Longest Q l u :=
  ⟨h.begins, (hPQ u h.begins).mp h.holds, fun v hv hQ => h.length_le v hv ((hPQ v hv).mpr hQ)⟩

/-- The longest beginning goes on behind an element. -/
lemma cons (h : Longest P l u) (hQ : ∀ v, Q (a :: v) ↔ P v) : Longest Q (a :: l) (a :: u) := by
  refine ⟨List.cons_prefix_cons.mpr ⟨rfl, h.begins⟩, (hQ u).mpr h.holds, fun v hv hv' => ?_⟩
  obtain rfl | ⟨w, rfl, hw⟩ := List.prefix_cons_iff.mp hv
  · exact Nat.zero_le _
  · exact Nat.succ_le_succ (h.length_le w hw ((hQ w).mp hv'))

lemma exists_cons (h : Longest Q (a :: l) u) (hQ : ∀ v, Q (a :: v) ↔ P v) (hnil : P []) :
    ∃ v, u = a :: v ∧ Longest P l v := by
  obtain rfl | ⟨v, rfl, hv⟩ := List.prefix_cons_iff.mp h.begins
  · exact absurd (h.length_le [a] ⟨l, rfl⟩ ((hQ []).mpr hnil)) (by simp)
  · refine ⟨v, rfl, hv, (hQ v).mp h.holds, fun w hw hw' => ?_⟩
    exact Nat.le_of_succ_le_succ
      (h.length_le (a :: w) (List.cons_prefix_cons.mpr ⟨rfl, hw⟩) ((hQ w).mpr hw'))

lemma replicate_append (h : Longest P l u) (hP : ∀ v, P (a :: v) ↔ P v) (k : ℕ) :
    Longest P (List.replicate k a ++ l) (List.replicate k a ++ u) := by
  induction k with
  | zero => exact h
  | succ k ih => exact ih.cons hP

/-- The next element would end the property. -/
lemma not_next (h : Longest P l u) : ∀ a ∈ (l.drop u.length).head?, ¬ P (u ++ [a]) := by
  intro a ha hP
  obtain ⟨r, rfl⟩ := h.begins
  rw [List.drop_left] at ha
  obtain ⟨r, rfl⟩ := List.head?_eq_some_iff.mp ha
  have hlength := h.length_le (u ++ [a]) ⟨r, by simp⟩ hP
  simp at hlength

end Longest

namespace Cursor

variable {c c' : Cursor} {u v : List Char}

/-- The place behind so many characters of a line. -/
def behind (c : Cursor) (n : ℕ) : Cursor :=
  ⟨c.rest.drop n, c.column + n⟩

lemma behind_cons (ch : Char) (l : List Char) (column n : ℕ) :
    (⟨ch :: l, column⟩ : Cursor).behind (n + 1) = (⟨l, column + 1⟩ : Cursor).behind n := by
  rw [behind, behind, List.drop_succ_cons, Nat.add_right_comm, Nat.add_assoc]

lemma takes_behind (h : u <+: c.rest) : c.Takes u (c.behind u.length) := by
  obtain ⟨r, hr⟩ := h
  refine ⟨?_, rfl⟩
  rw [behind, ← hr, List.drop_left]

/-! ### Characters one by one -/

section Collecting

variable {σ : Type} {accept : σ → Char → Option σ} {s s' : σ} {ch : Char} {l : List Char}

/-- Every character of the text is accepted behind those before it. -/
def Accepted (accept : σ → Char → Option σ) (s : σ) (u : List Char) : Prop :=
  (u.foldlM accept s).isSome

/-- Takes characters one by one, as long as the next one is accepted. -/
def collect (accept : σ → Char → Option σ) (s : σ) (c : Cursor) : List Char × Cursor :=
  match _line : c.rest with
  | [] => ([], c)
  | ch :: _ =>
    match accept s ch with
    | none => ([], c)
    | some s' =>
      let (u, c') := c.bump.collect accept s'
      (ch :: u, c')
termination_by c.rest.length
decreasing_by simp [bump, _line]

lemma accepted_cons (hch : accept s ch = some s') :
    Accepted accept s (ch :: u) ↔ Accepted accept s' u := by
  rw [Accepted, List.foldlM_cons, hch]
  rfl

lemma not_accepted_cons (hch : accept s ch = none) : ¬ Accepted accept s (ch :: u) := by
  rw [Accepted, List.foldlM_cons, hch]
  exact Bool.false_ne_true

/-- Where the next character is not accepted, no text is. -/
lemma longest_nil (hch : ∀ ch ∈ l.head?, accept s ch = none) :
    Longest (Accepted accept s) l [] := by
  refine ⟨List.nil_prefix, rfl, fun v hv haccepted => ?_⟩
  cases v with
  | nil => exact le_rfl
  | cons ch v =>
      obtain ⟨r, rfl⟩ := hv
      exact absurd haccepted (not_accepted_cons (hch ch rfl))

/-- **What is taken one by one is the longest accepted text**, and it stands on one line if no end
of a line is accepted. -/
theorem collect_eq (hnewline : ∀ s, accept s '\n' = none) (c : Cursor) (s : σ) :
    ∃ u, Longest (Accepted accept s) c.rest u ∧ '\n' ∉ u ∧
      c.collect accept s = (u, c.behind u.length) := by
  obtain ⟨l, column⟩ := c
  induction l generalizing s column with
  | nil =>
      refine ⟨[], longest_nil (by simp), List.not_mem_nil, ?_⟩
      rw [collect]
      rfl
  | cons ch l ih =>
      cases hch : accept s ch with
      | none =>
          refine ⟨[], longest_nil ?_, List.not_mem_nil, ?_⟩
          · rintro _ ⟨⟩
            exact hch
          · rw [collect]
            simp only [hch]
            rfl
      | some s' =>
          have hne : ch ≠ '\n' := by
            rintro rfl
            rw [hnewline] at hch
            cases hch
          obtain ⟨u, hu, hline, hcollect⟩ := ih s' (column + 1)
          have hline' := List.not_mem_cons_of_ne_of_not_mem hne.symm hline
          refine ⟨ch :: u, hu.cons fun _ => accepted_cons hch, hline', ?_⟩
          have hbump : Cursor.bump ⟨ch :: l, column⟩ = ⟨l, column + 1⟩ := bump_eq rfl hne
          rw [collect]
          simp only [hch, hbump, hcollect, List.length_cons, behind_cons]

/-- The text `u` is taken one by one from a place on: it is the longest one of the form `P`, and it
stands on one line. -/
structure Collects (accept : σ → Char → Option σ) (s : σ) (P : List Char → Prop) (c : Cursor)
    (u : List Char) : Prop where
  longest : Longest P c.rest u
  newline_notMem : '\n' ∉ u
  collect_eq : c.collect accept s = (u, c.behind u.length)

lemma exists_collects {P : List Char → Prop} (hnewline : ∀ s, accept s '\n' = none)
    (hform : ∀ u, Accepted accept s u ↔ P u) (c : Cursor) : ∃ u, c.Collects accept s P u := by
  obtain ⟨u, hlongest, hline, hcollect⟩ := collect_eq hnewline c s
  exact ⟨u, hlongest.congr fun v _ => hform v, hline, hcollect⟩

end Collecting

end Cursor

/-! ### Forms -/

/-- The texts of a numeral: digits, and a point with the digits behind it unless there is none.
There need not be any digit. -/
inductive Numeral.Written : Numeral → List Char → Prop where
  | whole {w : List Char} : Digits w → Written ⟨w, []⟩ w
  | point {w f : List Char} : Digits w → Digits f → Written ⟨w, f⟩ (w ++ '.' :: f)

/-- Digits, and a point with the digits behind it or none. -/
def PointedDigits (u : List Char) : Prop :=
  ∃ n : Numeral, n.Written u

/-- A sign or none, and digits. -/
def SignedDigits (u : List Char) : Prop :=
  ∃ σ s w, SignSpelled σ s ∧ Digits w ∧ u = s ++ w

/-- Accepts digits. -/
def acceptDigit (_ : Unit) (ch : Char) : Option Unit :=
  if ch.isDigit then some () else none

/-- Accepts digits and one point, unless it was seen before. -/
def acceptPointed (seen : Bool) (ch : Char) : Option Bool :=
  if ch = '.' ∧ seen = false then some true else if ch.isDigit then some seen else none

/-- Accepts digits, and a sign before all of them. -/
def acceptSigned (first : Bool) (ch : Char) : Option Bool :=
  if (ch = '-' ∨ ch = '+') ∧ first = true then some false
  else if ch.isDigit then some false else none

section Forms

open Cursor

variable {u : List Char} {ch : Char}

lemma digits_cons : Digits (ch :: u) ↔ ch.isDigit ∧ Digits u :=
  List.forall_mem_cons

lemma digits_nil : Digits [] :=
  fun _ h => absurd h List.not_mem_nil

/-- Where each digit is accepted and nothing else is, texts of digits are. -/
lemma accepted_iff_digits {σ : Type} {accept : σ → Char → Option σ} {s : σ}
    (hdigit : ∀ ch, accept s ch = if ch.isDigit then some s else none) :
    Accepted accept s u ↔ Digits u := by
  induction u with
  | nil => exact iff_of_true rfl digits_nil
  | cons ch u ih =>
      rw [digits_cons]
      by_cases hch : ch.isDigit
      · rw [accepted_cons ((hdigit ch).trans (if_pos hch)), ih, and_iff_right hch]
      · exact iff_of_false (not_accepted_cons ((hdigit ch).trans (if_neg hch))) fun h => hch h.1

lemma accepted_digit_iff : Accepted acceptDigit () u ↔ Digits u :=
  accepted_iff_digits fun _ => rfl

/-- Behind the point only digits are accepted. -/
lemma accepted_seen_iff : Accepted acceptPointed true u ↔ Digits u :=
  accepted_iff_digits fun ch => by simp [acceptPointed]

/-- Behind the first character of a signed number only digits are accepted. -/
lemma accepted_unsigned_iff : Accepted acceptSigned false u ↔ Digits u :=
  accepted_iff_digits fun ch => by simp [acceptSigned]

lemma pointedDigits_iff :
    PointedDigits u ↔ Digits u ∨ ∃ w f, Digits w ∧ Digits f ∧ u = w ++ '.' :: f := by
  constructor
  · rintro ⟨n, hn⟩
    cases hn with
    | whole hw => exact .inl hw
    | point hw hf => exact .inr ⟨_, _, hw, hf, rfl⟩
  · rintro (hw | ⟨w, f, hw, hf, rfl⟩)
    · exact ⟨_, .whole hw⟩
    · exact ⟨_, .point hw hf⟩

/-- Behind a digit stands another text of this form, and behind a point digits. -/
lemma pointedDigits_cons :
    PointedDigits (ch :: u) ↔ ch.isDigit ∧ PointedDigits u ∨ ch = '.' ∧ Digits u := by
  simp only [pointedDigits_iff]
  constructor
  · rintro (hw | ⟨w, f, hw, hf, heq⟩)
    · exact .inl ⟨(digits_cons.mp hw).1, .inl (digits_cons.mp hw).2⟩
    · obtain ⟨rfl, heq⟩ | ⟨w, rfl, rfl⟩ := List.cons_eq_append_iff.mp heq
      · obtain ⟨rfl, rfl⟩ := List.cons.inj heq
        exact .inr ⟨rfl, hf⟩
      · exact .inl ⟨(digits_cons.mp hw).1, .inr ⟨w, f, (digits_cons.mp hw).2, hf, rfl⟩⟩
  · rintro (⟨hch, hu | ⟨w, f, hw, hf, rfl⟩⟩ | ⟨rfl, hu⟩)
    · exact .inl (digits_cons.mpr ⟨hch, hu⟩)
    · exact .inr ⟨ch :: w, f, digits_cons.mpr ⟨hch, hw⟩, hf, rfl⟩
    · exact .inr ⟨[], u, digits_nil, hu, rfl⟩

lemma accepted_pointed_iff : Accepted acceptPointed false u ↔ PointedDigits u := by
  induction u with
  | nil => exact iff_of_true rfl (pointedDigits_iff.mpr (.inl digits_nil))
  | cons ch u ih =>
      rw [pointedDigits_cons]
      by_cases hpoint : ch = '.'
      · subst hpoint
        have haccept : acceptPointed false '.' = some true := rfl
        simp [accepted_cons haccept, accepted_seen_iff]
      · by_cases hch : ch.isDigit
        · have haccept : acceptPointed false ch = some false := by simp [acceptPointed, hch, hpoint]
          simp [accepted_cons haccept, ih, hch, hpoint]
        · have haccept : acceptPointed false ch = none := by simp [acceptPointed, hch, hpoint]
          simp [not_accepted_cons haccept, hch, hpoint]

lemma signedDigits_nil : SignedDigits [] :=
  ⟨1, [], [], .none, digits_nil, rfl⟩

/-- A sign or a digit is followed by digits. -/
lemma signedDigits_cons :
    SignedDigits (ch :: u) ↔ (ch.isDigit ∨ ch = '-' ∨ ch = '+') ∧ Digits u := by
  constructor
  · rintro ⟨σ, s, w, hs, hw, heq⟩
    cases hs with
    | none =>
        obtain rfl : ch :: u = w := heq
        exact ⟨.inl (digits_cons.mp hw).1, (digits_cons.mp hw).2⟩
    | plus =>
        obtain ⟨rfl, rfl⟩ := List.cons.inj heq
        exact ⟨.inr (.inr rfl), hw⟩
    | minus =>
        obtain ⟨rfl, rfl⟩ := List.cons.inj heq
        exact ⟨.inr (.inl rfl), hw⟩
  · rintro ⟨hch | rfl | rfl, hu⟩
    · exact ⟨1, [], ch :: u, .none, digits_cons.mpr ⟨hch, hu⟩, rfl⟩
    · exact ⟨-1, ['-'], u, .minus, hu, rfl⟩
    · exact ⟨1, ['+'], u, .plus, hu, rfl⟩

lemma accepted_signed_iff : Accepted acceptSigned true u ↔ SignedDigits u := by
  cases u with
  | nil => exact iff_of_true rfl signedDigits_nil
  | cons ch u =>
      rw [signedDigits_cons]
      by_cases hch : ch.isDigit ∨ ch = '-' ∨ ch = '+'
      · have haccept : acceptSigned true ch = some false := by
          rcases hch with hch | rfl | rfl <;> simp [acceptSigned, *]
        rw [accepted_cons haccept, accepted_unsigned_iff, and_iff_right hch]
      · have haccept : acceptSigned true ch = none := by
          simp only [not_or] at hch
          simp [acceptSigned, hch]
        exact iff_of_false (not_accepted_cons haccept) fun h => hch h.1

lemma exists_collects_digits (c : Cursor) : ∃ u, c.Collects acceptDigit () Digits u :=
  exists_collects (fun _ => rfl) (fun _ => accepted_digit_iff) c

lemma exists_collects_pointed (c : Cursor) : ∃ u, c.Collects acceptPointed false PointedDigits u :=
  exists_collects (by decide) (fun _ => accepted_pointed_iff) c

lemma exists_collects_signed (c : Cursor) : ∃ u, c.Collects acceptSigned true SignedDigits u :=
  exists_collects (by decide) (fun _ => accepted_signed_iff) c

end Forms

/-! ### What is read -/

namespace Cursor

variable {c : Cursor} {u : List Char}

/-- A run of digits is the longest one. -/
lemma span_of_longest (h : Longest Digits c.rest u) :
    c.span Char.isDigit = (u, c.behind u.length) := by
  refine span_eq_iff.mpr ⟨takes_behind h.begins, h.holds, fun ch hch => ?_⟩
  by_contra hdigit
  refine h.not_next ch hch (List.forall_mem_append.mpr ⟨h.holds, ?_⟩)
  simpa using hdigit

/-- A numeral is read from the longest text of the form. -/
theorem numeral_of_longest {n : Numeral} (h : Longest PointedDigits c.rest u) (hn : n.Written u) :
    c.numeral = (n, c.behind u.length) := by
  have ht := takes_behind h.begins
  have hnext := h.not_next
  cases hn with
  | whole hw =>
      refine numeral_eq_of_whole hw rfl ht fun ch hch => ⟨?_, ?_⟩
      · by_contra hdigit
        have hdigits : Digits [ch] := by simpa [Digits] using hdigit
        exact hnext ch hch ⟨_, .whole (List.forall_mem_append.mpr ⟨hw, hdigits⟩)⟩
      · rintro rfl
        exact hnext '.' hch ⟨_, .point hw digits_nil⟩
  | @point w f hw hf =>
      refine numeral_eq_of_point hw hf ht fun ch hch => ?_
      by_contra hdigit
      have hdigits : Digits [ch] := by simpa [Digits] using hdigit
      refine hnext ch hch ⟨⟨w, f ++ [ch]⟩, ?_⟩
      rw [List.append_assoc, List.cons_append]
      exact .point hw (List.forall_mem_append.mpr ⟨hf, hdigits⟩)

/-- An order is read from the longest run of digits. -/
theorem order_of_longest (h : Longest Digits c.rest u) :
    c.order = (if u ≠ [] ∧ Nat.ofDigitChars 10 u 0 ≤ 2 ^ 64 - 1 then
      some (Nat.ofDigitChars 10 u 0) else none, c.behind u.length) := by
  rw [order, span_of_longest h]
  rfl

lemma unsigned_of_longest (h : Longest Digits c.rest u) (σ : ℤ) :
    exponent.unsigned c σ = (if u ≠ [] ∧ -2 ^ 31 ≤ σ * Nat.ofDigitChars 10 u 0 ∧
      σ * Nat.ofDigitChars 10 u 0 ≤ 2 ^ 31 - 1 then some (σ * Nat.ofDigitChars 10 u 0) else none,
      c.behind u.length) := by
  rw [exponent.unsigned, span_of_longest h]
  simp only [Int.le_sub_one_iff]
  rfl

/-- Behind a sign the longest run of digits is read. -/
lemma longest_of_sign {ch : Char} {l : List Char} (hch : ch = '-' ∨ ch = '+')
    (h : Longest SignedDigits (ch :: l) (ch :: u)) : Longest Digits l u := by
  obtain ⟨v, hv, hlongest⟩ := h.exists_cons (P := Digits)
    (fun v => by rw [signedDigits_cons, and_iff_right (.inr hch)]) digits_nil
  exact (List.cons.inj hv).2 ▸ hlongest

/-- Digits that are the longest signed text are all digits that are there, and no sign is. -/
lemma longest_of_digits {l : List Char} (h : Longest SignedDigits l u) (hu : Digits u) :
    Longest Digits l u ∧ ∀ ch ∈ l.head?, ¬ (ch = '-' ∨ ch = '+') := by
  refine ⟨⟨h.begins, hu, fun v hv hdigits => h.length_le v hv ⟨1, [], v, .none, hdigits, rfl⟩⟩, ?_⟩
  intro ch hch hsign
  obtain ⟨r, rfl⟩ := List.head?_eq_some_iff.mp hch
  obtain ⟨v, rfl, -⟩ := h.exists_cons (P := Digits)
    (fun v => by rw [signedDigits_cons, and_iff_right (.inr hsign)]) digits_nil
  rcases hsign with rfl | rfl <;> exact absurd (digits_cons.mp hu).1 (by decide)

/-- An integer is read from the longest text of a sign or none and digits. -/
theorem exponent_of_longest {σ : ℤ} {s w : List Char} (h : Longest SignedDigits c.rest (s ++ w))
    (hs : SignSpelled σ s) (hw : Digits w) :
    c.exponent = (if w ≠ [] ∧ -2 ^ 31 ≤ σ * Nat.ofDigitChars 10 w 0 ∧
      σ * Nat.ofDigitChars 10 w 0 ≤ 2 ^ 31 - 1 then some (σ * Nat.ofDigitChars 10 w 0) else none,
      c.behind (s ++ w).length) := by
  obtain ⟨l, column⟩ := c
  cases hs with
  | none =>
      obtain ⟨hlongest, hsign⟩ := longest_of_digits h hw
      rw [exponent]
      split
      · next hl => exact absurd (.inl rfl) (hsign '-' (by simp_all))
      · next hl => exact absurd (.inr rfl) (hsign '+' (by simp_all))
      · exact unsigned_of_longest hlongest 1
  | plus =>
      obtain ⟨r, rfl⟩ := h.begins
      have hread := unsigned_of_longest (c := ⟨w ++ r, column + 1⟩) (longest_of_sign (.inr rfl) h) 1
      exact hread.trans (congrArg _ (behind_cons '+' (w ++ r) column w.length).symm)
  | minus =>
      obtain ⟨r, rfl⟩ := h.begins
      have hread :=
        unsigned_of_longest (c := ⟨w ++ r, column + 1⟩) (longest_of_sign (.inl rfl) h) (-1)
      exact hread.trans (congrArg _ (behind_cons '-' (w ++ r) column w.length).symm)

end Cursor

/-! ### The scanners -/

namespace Scan

variable {c : Cursor} {u : List Char}

/-- The integer behind the sign of a power at `position`. -/
def integer (position : ℕ) : Scan ℤ := do
  match ← modifyGet Cursor.exponent with
  | some k => return k
  | none => throw (.invalidExponent position)

/-- An exponent is a `T` or an integer, behind blanks. -/
lemma exponent_eq (position : ℕ) :
    exponent position = (do
      modify Cursor.skipBlanks
      if (← get).rest.head? = some 'T' then
        modify Cursor.bump
        return none
      else
        return some (← integer position)) := by
  rw [exponent]
  refine bind_congr fun _ => bind_congr fun c => ?_
  split
  · rfl
  · rw [integer, bind_assoc]
    exact bind_congr fun found => by cases found <;> rfl

/-- What follows a scanner goes on with its value where it stops. -/
lemma bind_modifyGet {α β : Type} {f : Cursor → α × Cursor} {k : α → Scan β} {a : α} {c' : Cursor}
    (h : f c = (a, c')) : (modifyGet f >>= k) c = k a c' := by
  change k (f c).1 (f c).2 = k a c'
  rw [h]

lemma any_isDigit_iff (hu : Digits u) : u.any Char.isDigit ↔ u ≠ [] := by
  cases u with
  | nil => simp
  | cons ch u => simp [(digits_cons.mp hu).1]

/-- A numeral has a double if there is a digit in its text. -/
lemma toDouble?_of_written {n : Numeral} (hn : n.Written u) :
    n.toDouble? = if u.any Char.isDigit then some n.toDouble else none := by
  have hany : u.any Char.isDigit ↔ ¬ (n.whole = [] ∧ n.fraction = []) := by
    cases hn with
    | whole hw => simpa using any_isDigit_iff hw
    | point hw hf =>
        rw [List.any_append, List.any_cons, Bool.or_eq_true, Bool.or_eq_true, any_isDigit_iff hw,
          any_isDigit_iff hf]
        have hpoint : Char.isDigit '.' = false := rfl
        simp [hpoint, or_iff_not_imp_left]
  simp only [hany]
  rw [Numeral.toDouble?]
  split <;> simp_all

lemma number_of_longest {n : Numeral} (h : Longest PointedDigits c.rest u) (hn : n.Written u)
    (negative : Bool) (start : ℕ) :
    number negative start c =
      if u.any Char.isDigit then
        .ok (if negative then -n.toDouble else n.toDouble) (c.behind u.length)
      else .error (.missingScalar start) (c.behind u.length) := by
  refine (bind_modifyGet (Cursor.numeral_of_longest h hn)).trans ?_
  rw [toDouble?_of_written hn]
  split_ifs <;> rfl

lemma order_of_longest (h : Longest Digits c.rest u) (start : ℕ) :
    order start c =
      if u ≠ [] ∧ Nat.ofDigitChars 10 u 0 ≤ 2 ^ 64 - 1 then
        .ok (Nat.ofDigitChars 10 u 0) (c.behind u.length)
      else .error (.missingOrder start) (c.behind u.length) := by
  refine (bind_modifyGet (Cursor.order_of_longest h)).trans ?_
  split_ifs <;> rfl

lemma integer_of_longest {σ : ℤ} {s w : List Char} (h : Longest SignedDigits c.rest (s ++ w))
    (hs : SignSpelled σ s) (hw : Digits w) (position : ℕ) :
    integer position c =
      if w ≠ [] ∧ -2 ^ 31 ≤ σ * Nat.ofDigitChars 10 w 0 ∧
          σ * Nat.ofDigitChars 10 w 0 ≤ 2 ^ 31 - 1 then
        .ok (σ * Nat.ofDigitChars 10 w 0) (c.behind (s ++ w).length)
      else .error (.invalidExponent position) (c.behind (s ++ w).length) := by
  refine (bind_modifyGet (Cursor.exponent_of_longest h hs hw)).trans ?_
  split_ifs <;> rfl

/-! ### Leading zeros -/

section Zeros

variable {l r v : List Char} {d : Char} {column k : ℕ}

/-- So many zeros. -/
def zeros (k : ℕ) : List Char :=
  List.replicate k '0'

lemma ofDigitChars_zeros (k : ℕ) (w : List Char) :
    Nat.ofDigitChars 10 (zeros k ++ w) 0 = Nat.ofDigitChars 10 w 0 := by
  induction k with
  | zero => rfl
  | succ k ih => exact ih

lemma behind_zeros (k : ℕ) (l u : List Char) (column : ℕ) :
    (⟨zeros k ++ l, column⟩ : Cursor).behind (zeros k ++ u).length =
      (⟨l, column + k⟩ : Cursor).behind u.length := by
  simp [Cursor.behind, zeros, List.drop_append, Nat.add_assoc]

lemma digits_zeros (hu : Digits u) (k : ℕ) : Digits (zeros k ++ u) := by
  refine List.forall_mem_append.mpr ⟨fun ch hch => ?_, hu⟩
  rw [List.eq_of_mem_replicate hch]
  rfl

/-- Digits that begin with one are not empty. -/
lemma exists_longest_digits (hd : d.isDigit) (r : List Char) :
    ∃ u, Longest Digits (d :: r) u ∧ u ≠ [] := by
  obtain ⟨u, ⟨hlongest, -, -⟩⟩ := exists_collects_digits ⟨d :: r, 0⟩
  obtain ⟨v, rfl, -⟩ := hlongest.exists_cons (P := Digits)
    (fun v => by rw [digits_cons, and_iff_right hd]) digits_nil
  exact ⟨_, hlongest, List.cons_ne_nil d v⟩

lemma longest_zeros (h : Longest Digits l u) (k : ℕ) :
    Longest Digits (zeros k ++ l) (zeros k ++ u) :=
  h.replicate_append (fun v => by rw [digits_cons]; exact and_iff_right rfl) k

lemma order_zeros (hd : d.isDigit) (r : List Char) (start column k : ℕ) :
    order start ⟨zeros k ++ d :: r, column⟩ = order start ⟨d :: r, column + k⟩ := by
  obtain ⟨u, hu, hne⟩ := exists_longest_digits hd r
  have hzeros : zeros k ++ u ≠ [] := List.append_ne_nil_of_right_ne_nil _ hne
  rw [order_of_longest (c := ⟨_, column⟩) (longest_zeros hu k),
    order_of_longest (c := ⟨_, column + k⟩) hu, ofDigitChars_zeros, behind_zeros]
  simp only [ne_eq, hne, hzeros]

/-- Behind a sign or none, the longest run of digits is the longest signed one. -/
lemma longest_signed {σ : ℤ} {s : List Char} (hs : SignSpelled σ s) (hd : d.isDigit)
    (h : Longest Digits (d :: r) u) : Longest SignedDigits (s ++ d :: r) (s ++ u) := by
  have hsign : ∀ ch, ch = '-' ∨ ch = '+' → ∀ v, SignedDigits (ch :: v) ↔ Digits v := by
    intro ch hch v
    rw [signedDigits_cons, and_iff_right (.inr hch)]
  cases hs with
  | none =>
      refine h.congr fun v hv => ?_
      obtain rfl | ⟨w, rfl, -⟩ := List.prefix_cons_iff.mp hv
      · exact iff_of_true digits_nil signedDigits_nil
      · rw [signedDigits_cons, digits_cons, and_iff_right hd, and_iff_right (.inl hd)]
  | plus => exact h.cons (hsign '+' (.inr rfl))
  | minus => exact h.cons (hsign '-' (.inl rfl))

lemma integer_zeros {σ : ℤ} {s : List Char} (hs : SignSpelled σ s) (hd : d.isDigit) (r : List Char)
    (position column k : ℕ) :
    integer position ⟨s ++ (zeros k ++ d :: r), column⟩ =
      integer position ⟨s ++ d :: r, column + k⟩ := by
  obtain ⟨u, hu, hne⟩ := exists_longest_digits hd r
  have hzeros : zeros k ++ u ≠ [] := List.append_ne_nil_of_right_ne_nil _ hne
  have hsigned : Longest SignedDigits (s ++ (zeros k ++ d :: r)) (s ++ (zeros k ++ u)) := by
    cases k with
    | zero => exact longest_signed hs hd hu
    | succ k => exact longest_signed hs rfl (longest_zeros hu (k + 1))
  have hbehind : (⟨s ++ (zeros k ++ d :: r), column⟩ : Cursor).behind (s ++ (zeros k ++ u)).length =
      (⟨s ++ d :: r, column + k⟩ : Cursor).behind (s ++ u).length := by
    simp [Cursor.behind, zeros, List.drop_append]
    omega
  rw [integer_of_longest (c := ⟨_, column⟩) hsigned hs (digits_zeros hu.holds k),
    integer_of_longest (c := ⟨_, column + k⟩) (longest_signed hs hd hu) hs hu.holds,
    ofDigitChars_zeros, hbehind]
  simp only [ne_eq, hne, hzeros]

/-- Zeros before a numeral do not change its value. -/
lemma exists_written_zeros {n : Numeral} (hn : n.Written u) (k : ℕ) :
    ∃ m : Numeral, m.Written (zeros k ++ u) ∧ m.toDouble = n.toDouble := by
  refine ⟨⟨zeros k ++ n.whole, n.fraction⟩, ?_, ?_⟩
  · cases hn with
    | whole hw => exact .whole (digits_zeros hw k)
    | point hw hf =>
        rw [← List.append_assoc]
        exact .point (digits_zeros hw k) hf
  · rw [Numeral.toDouble, Numeral.toDouble, Numeral.mantissa, Numeral.mantissa, List.append_assoc,
      ofDigitChars_zeros]

lemma number_zeros {negative : Bool} {start : ℕ} {x : Float} {c : Cursor}
    (h : number negative start ⟨l, column + k⟩ = .ok x c) :
    number negative start ⟨zeros k ++ l, column⟩ = .ok x c := by
  obtain ⟨u, ⟨hlongest, -, -⟩⟩ := exists_collects_pointed ⟨l, 0⟩
  have hlongest' : Longest PointedDigits (zeros k ++ l) (zeros k ++ u) :=
    hlongest.replicate_append (fun v => by simp [pointedDigits_cons]) k
  obtain ⟨n, hn⟩ := hlongest.holds
  obtain ⟨m, hm, hvalue⟩ := exists_written_zeros hn k
  rw [number_of_longest (c := ⟨l, column + k⟩) hlongest hn] at h
  split at h
  · next hany =>
    have hany' : (zeros k ++ u).any Char.isDigit := by rw [List.any_append, hany, Bool.or_true]
    rw [number_of_longest (c := ⟨_, column⟩) hlongest' hm, if_pos hany', hvalue, behind_zeros]
    exact h
  · cases h

end Zeros

/-! ### All answers -/

/-- **The scanners of numbers take the longest text of their form.**  A number is digits, and a
point with the digits behind it, and is refused only if there is no digit; the order of an identity
is digits, and is refused if there are none or their value has more than 64 bits; an integer is a
sign or none and digits, and is refused if there are none or its value has more than 32 bits with
the sign.  Each takes its text one character after another and stops behind it, on the same line,
whether it answers or refuses.  Zeros before the digits move the column and change nothing else. -/
theorem longest_match :
    (∀ (c : Cursor) (start : ℕ),
      (∃ (u : List Char) (n : Numeral),
        c.Collects acceptPointed false PointedDigits u ∧ n.Written u ∧
        ∀ negative, number negative start c =
          if u.any Char.isDigit then
            .ok (if negative then -n.toDouble else n.toDouble) (c.behind u.length)
          else .error (.missingScalar start) (c.behind u.length)) ∧
      (∃ u : List Char, c.Collects acceptDigit () Digits u ∧
        order start c =
          if u ≠ [] ∧ Nat.ofDigitChars 10 u 0 ≤ 2 ^ 64 - 1 then
            .ok (Nat.ofDigitChars 10 u 0) (c.behind u.length)
          else .error (.missingOrder start) (c.behind u.length)) ∧
      ∃ (σ : ℤ) (s w : List Char), SignSpelled σ s ∧ Digits w ∧
        c.Collects acceptSigned true SignedDigits (s ++ w) ∧
        integer start c =
          if w ≠ [] ∧ -2 ^ 31 ≤ σ * Nat.ofDigitChars 10 w 0 ∧
              σ * Nat.ofDigitChars 10 w 0 ≤ 2 ^ 31 - 1 then
            .ok (σ * Nat.ofDigitChars 10 w 0) (c.behind (s ++ w).length)
          else .error (.invalidExponent start) (c.behind (s ++ w).length)) ∧
    (∀ start, exponent start = (do
      modify Cursor.skipBlanks
      if (← get).rest.head? = some 'T' then
        modify Cursor.bump
        return none
      else
        return some (← integer start))) ∧
    ∀ (start column k : ℕ) (l : List Char),
      (∀ negative x c, number negative start ⟨l, column + k⟩ = .ok x c →
        number negative start ⟨zeros k ++ l, column⟩ = .ok x c) ∧
      ∀ (d : Char) (r : List Char), l = d :: r → d.isDigit →
        order start ⟨zeros k ++ l, column⟩ = order start ⟨l, column + k⟩ ∧
        ∀ σ s, SignSpelled σ s →
          integer start ⟨s ++ (zeros k ++ l), column⟩ = integer start ⟨s ++ l, column + k⟩ := by
  refine ⟨fun c start => ⟨?number, ?order, ?integer⟩, exponent_eq, fun start column k l =>
    ⟨fun negative x c h => number_zeros h, ?zeros⟩⟩
  case number =>
    obtain ⟨u, hu⟩ := exists_collects_pointed c
    obtain ⟨n, hn⟩ := hu.longest.holds
    exact ⟨u, n, hu, hn, fun negative => number_of_longest hu.longest hn negative start⟩
  case order =>
    obtain ⟨u, hu⟩ := exists_collects_digits c
    exact ⟨u, hu, order_of_longest hu.longest start⟩
  case integer =>
    obtain ⟨u, hu⟩ := exists_collects_signed c
    obtain ⟨σ, s, w, hs, hw, rfl⟩ := hu.longest.holds
    exact ⟨σ, s, w, hs, hw, hu, integer_of_longest hu.longest hs hw start⟩
  case zeros =>
    rintro d r rfl hd
    exact ⟨order_zeros hd r start column k, fun σ s hs => integer_zeros hs hd r start column k⟩

/-- The order `0012` is twelve; the exponent with the least value may have zeros behind its sign;
and a number stops before its second point. -/
theorem longest_match_of_zeros :
    order 0 ⟨"0012x".toList, 1⟩ = .ok 12 ⟨['x'], 5⟩ ∧
      integer 0 ⟨"-002147483648".toList, 1⟩ = .ok (-2 ^ 31) ⟨[], 14⟩ ∧
      integer 0 ⟨"-002147483649".toList, 1⟩ = .error (.invalidExponent 0) ⟨[], 14⟩ ∧
      number true 0 ⟨"001.5.2".toList, 1⟩ =
        .ok (-Numeral.toDouble ⟨['1'], ['5']⟩) ⟨['.', '2'], 6⟩ := by
  obtain ⟨-, -, hzeros⟩ := longest_match
  have horder := ((hzeros 0 1 2 "12x".toList).2 '1' "2x".toList rfl rfl).1
  have hleast := ((hzeros 0 1 2 "2147483648".toList).2 '2' "147483648".toList rfl rfl).2 _ _ .minus
  have hless := ((hzeros 0 1 2 "2147483649".toList).2 '2' "147483649".toList rfl rfl).2 _ _ .minus
  exact ⟨horder.trans rfl, hleast.trans rfl, hless.trans rfl,
    (hzeros 0 1 2 "1.5.2".toList).1 _ _ _ rfl⟩

end Scan

end MatrixReckoner
