import Mathlib.Tactic
import MatrixReckoner.Proofs.Expression.Balance

/-!
Parentheses: which of a text have partners, and which of them wait on the stacks.

* `openBehind`, `Paired`: how many groups are open behind a text, and texts whose parentheses all
  have partners; `paired_iff` says so by their numbers.
* `Unpaired`: a parenthesis of a line that has none.
* `Opened`: the places of the parentheses that a text leaves open, with what other texts behind it
  do to them.
* `Stacks.opens`: the places of the parentheses that wait on the stacks, with what operators,
  closing parentheses and the end of the line do to them.
-/

namespace MatrixReckoner

namespace Expression

/-! ### Texts -/

/-- How many groups are open behind a character, if `d` are open before it.  A closing parenthesis
ends one. -/
def openBehindChar (d : ℕ) (ch : Char) : Option ℕ :=
  if ch = '(' then some (d + 1)
  else if ch = ')' then
    match d with
    | 0 => none
    | d + 1 => some d
  else some d

/-- How many groups are open behind a text, if `d` are open before it and each of its closing
parentheses ends one. -/
def openBehind (d : ℕ) (u : List Char) : Option ℕ :=
  u.foldlM openBehindChar d

/-- Every parenthesis of the text has a partner in it. -/
def Paired (u : List Char) : Prop :=
  openBehind 0 u = some 0

instance Paired.instDecidable (u : List Char) : Decidable (Paired u) :=
  inferInstanceAs (Decidable (_ = _))

/-- The parenthesis at the position has no partner: a closing one, before which none is open, or an
open one, behind which none closes it. -/
def Unpaired (l : List Char) (position : ℕ) : Prop :=
  l[position]? = some ')' ∧ Paired (l.take position) ∨
    l[position]? = some '(' ∧ Paired (l.drop (position + 1))

variable {d e p : ℕ} {u v : List Char} {ps : List ℕ}

/-- The text leaves `e` groups open if no beginning of it closes more groups than are open there. -/
lemma openBehind_eq_some_iff :
    openBehind d u = some e ↔ u.count '(' + d = u.count ')' + e ∧
      ∀ v, v <+: u → v.count ')' ≤ v.count '(' + d := by
  induction u generalizing d with
  | nil => simp [openBehind]
  | cons ch u ih =>
      have hbegins : (∀ v, v <+: ch :: u → v.count ')' ≤ v.count '(' + d) ↔
          ∀ v, v <+: u → (ch :: v).count ')' ≤ (ch :: v).count '(' + d := by
        refine ⟨fun h v hv => h _ (List.cons_prefix_cons.mpr ⟨rfl, hv⟩), fun h v hv => ?_⟩
        obtain rfl | ⟨w, rfl, hw⟩ := List.prefix_cons_iff.mp hv
        · exact Nat.zero_le _
        · exact h w hw
      rw [hbegins]
      by_cases hopen : ch = '('
      · subst hopen
        have hstep : openBehind d ('(' :: u) = openBehind (d + 1) u := rfl
        simp only [hstep, ih, List.count_cons_self,
          List.count_cons_of_ne (show '(' ≠ ')' by decide),
          Nat.add_right_comm _ 1 d, Nat.add_assoc _ d 1]
      · by_cases hclose : ch = ')'
        · subst hclose
          simp only [List.count_cons_self, List.count_cons_of_ne (show ')' ≠ '(' by decide)]
          cases d with
          | zero =>
              refine iff_of_false nofun fun h => ?_
              exact absurd (h.2 [] List.nil_prefix) (by decide)
          | succ d =>
              have hstep : openBehind (d + 1) (')' :: u) = openBehind d u := rfl
              simp only [hstep, ih, ← Nat.add_assoc, Nat.add_right_comm _ 1 e,
                Nat.add_le_add_iff_right, Nat.add_right_cancel_iff]
        · have hstep : openBehind d (ch :: u) = openBehind d u := by
            rw [openBehind, List.foldlM_cons, openBehindChar.eq_def, if_neg hopen, if_neg hclose]
            rfl
          simp only [hstep, ih, List.count_cons_of_ne hopen, List.count_cons_of_ne hclose]

/-- Every parenthesis has a partner if there are as many of both kinds, and no beginning of the text
has more closing ones. -/
theorem paired_iff : Paired u ↔
    u.count '(' = u.count ')' ∧ ∀ v, v <+: u → v.count ')' ≤ v.count '(' :=
  openBehind_eq_some_iff

lemma openBehind_append (d : ℕ) (u v : List Char) :
    openBehind d (u ++ v) = openBehind d u >>= (openBehind · v) :=
  List.foldlM_append

/-- Groups that are open around a text stay open. -/
lemma openBehind_add (h : openBehind d u = some e) (k : ℕ) :
    openBehind (d + k) u = some (e + k) := by
  obtain ⟨hcount, hbegins⟩ := openBehind_eq_some_iff.mp h
  refine openBehind_eq_some_iff.mpr ⟨by omega, fun v hv => ?_⟩
  have := hbegins v hv
  omega

lemma paired_of_notMem (hopen : '(' ∉ u) (hclose : ')' ∉ u) : Paired u := by
  refine paired_iff.mpr ⟨?_, fun v hv => ?_⟩
  · rw [List.count_eq_zero_of_not_mem hopen, List.count_eq_zero_of_not_mem hclose]
  · rw [List.count_eq_zero_of_not_mem fun hmem => hclose (hv.subset hmem)]
    exact Nat.zero_le _

lemma Paired.append (hu : Paired u) (hv : Paired v) : Paired (u ++ v) := by
  rw [Paired, openBehind_append, hu]
  exact hv

/-- A group is paired if the text within it is. -/
lemma Paired.group (h : Paired u) : Paired ('(' :: u ++ [')']) := by
  have hu : openBehind 1 u = some 1 := by simpa using openBehind_add h 1
  have hopen : openBehind 0 ('(' :: u) = some 1 := hu
  rw [Paired, openBehind_append, hopen]
  rfl

/-! ### Open parentheses -/

/-- The text leaves the parentheses at these positions open, the last first, and no other one
without a partner. -/
inductive Opened : List ℕ → List Char → Prop where
  | nil {u : List Char} : Paired u → Opened [] u
  | cons {ps : List ℕ} {u v : List Char} : Opened ps u → Paired v →
      Opened (u.length :: ps) (u ++ '(' :: v)

namespace Opened

lemma append (h : Opened ps u) (hv : Paired v) : Opened ps (u ++ v) := by
  cases h with
  | nil hu => exact .nil (hu.append hv)
  | cons hu hw =>
      rw [List.append_assoc, List.cons_append]
      exact .cons hu (hw.append hv)

lemma openGroup (h : Opened ps u) : Opened (u.length :: ps) (u ++ ['(']) :=
  .cons h rfl

lemma closeGroup (h : Opened (p :: ps) u) : Opened ps (u ++ [')']) := by
  cases h with
  | cons hu hv =>
      rw [List.append_assoc]
      exact hu.append hv.group

lemma paired (h : Opened [] u) : Paired u := by
  cases h with
  | nil hu => exact hu

lemma unpaired_close (h : Opened [] u) (v : List Char) : Unpaired (u ++ ')' :: v) u.length :=
  Or.inl ⟨by simp, by simpa using h.paired⟩

lemma unpaired_open (h : Opened (p :: ps) u) : Unpaired u p := by
  cases h with
  | cons hu hv => exact Or.inr ⟨by simp, by simpa using hv⟩

end Opened

end Expression

/-! ### Stacks -/

/-- The position that an error names, if it names one. -/
def ExpressionError.position? : ExpressionError → Option ℕ
  | raggedMatrix _ _ _ position | unterminatedMatrix position | unexpectedCharacter _ position
  | missingOperator position | missingOperand position | missingScalar position
  | missingOrder position | unmatchedParen position | invalidPower position
  | invalidExponent position => some position
  | matrix _ | incompatibleOperands _ | insufficientOperands | scalarResult => none

/-- The error is one of an operation on operands, and tells nothing about the text. -/
def ExpressionError.Operational (e : ExpressionError) : Prop :=
  e.position? = none ∧ e ≠ .scalarResult

namespace Stacks

/-- The positions of the open parentheses that wait, the topmost first. -/
def opens : List Pending → List ℕ
  | [] => []
  | .openParen position :: pending => position :: opens pending
  | .operator _ :: pending => opens pending

lemma operational_reduce (op : Operator) (operands : List Operand) :
    Meets ExpressionError.Operational (fun _ => True) (reduce op operands) := by
  unfold reduce
  split
  · exact (meets_combine (fun _ => ⟨rfl, nofun⟩) (fun _ => ⟨rfl, nofun⟩) _ _ _).bind
      fun _ _ => trivial
  · exact ⟨rfl, nofun⟩

/-- No operator opens or closes a group. -/
lemma opens_reduceWhile (priority : ℕ) (operands : List Operand) (pending : List Pending) :
    Meets ExpressionError.Operational (fun s => opens s.pending = opens pending)
      (reduceWhile priority operands pending) := by
  induction pending generalizing operands with
  | nil => exact rfl
  | cons top pending ih =>
      cases top with
      | openParen position => exact rfl
      | operator op =>
          unfold reduceWhile
          split
          · exact rfl
          · exact (operational_reduce op operands).bind fun operands _ => ih operands

lemma opens_pushOperator (s : Stacks) (op : Operator) :
    Meets ExpressionError.Operational (fun s' => opens s'.pending = opens s.pending)
      (s.pushOperator op) :=
  (opens_reduceWhile _ _ _).bind fun _ h => h

/-- A closing parenthesis ends the group that was opened last, and has no partner where none is
open. -/
lemma opens_closeGroup (s : Stacks) (position : ℕ) :
    Meets (fun e => e.Operational ∨ e = .unmatchedParen position ∧ opens s.pending = [])
      (fun s' => ∃ p, opens s.pending = p :: opens s'.pending) (s.closeGroup position) := by
  obtain ⟨operands, pending⟩ := s
  rw [closeGroup]
  dsimp only
  induction pending generalizing operands with
  | nil => exact Or.inr ⟨rfl, rfl⟩
  | cons top pending ih =>
      cases top with
      | openParen p => exact ⟨p, rfl⟩
      | operator op =>
          refine Meets.bind (P := fun _ => True) ?_ fun operands _ => ih operands
          exact (operational_reduce op operands).mono (fun _ => Or.inl) fun _ => id

/-- At the end of the line the group that was opened last is reported, and if there is a value, no
group is open. -/
lemma opens_finish (s : Stacks) :
    Meets (fun e => e.Operational ∨ e = .scalarResult ∧ opens s.pending = [] ∨
        ∃ p ps, e = .unmatchedParen p ∧ opens s.pending = p :: ps)
      (fun _ => opens s.pending = []) s.finish := by
  obtain ⟨operands, pending⟩ := s
  rw [finish]
  dsimp only
  induction pending generalizing operands with
  | nil =>
      unfold reduceAll
      split
      · exact rfl
      · exact Or.inr (Or.inl ⟨rfl, rfl⟩)
      · exact Or.inl ⟨rfl, nofun⟩
  | cons top pending ih =>
      cases top with
      | openParen p => exact Or.inr (Or.inr ⟨p, _, rfl, rfl⟩)
      | operator op =>
          refine Meets.bind (P := fun _ => True) ?_ fun operands _ => ih operands
          exact (operational_reduce op operands).mono (fun _ => Or.inl) fun _ => id

end Stacks

end MatrixReckoner
