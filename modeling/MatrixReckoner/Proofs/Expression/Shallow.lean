import MatrixReckoner.Proofs.Expression.Acceptance
import MatrixReckoner.Proofs.Expression.Causes

/-!
Few entries wait on the stacks.

* `Pending.OnTop`, `Stacks.Rising`: operators that wait on top of each other bind tighter and
  tighter.
* `Stacks.operators_le`: so there are at most two of them in a group, and the operator on top says
  how many can wait altogether.
* `Stacks.Changes`, `Machine.changes_of_step`: what a token does to the waiting entries, and
  `Stacks.Rising.of_changes`: nothing of it lets them stop rising.
* `Machine.openBehind_of_reads`: the open groups are those of the text that was read.
* `Pass.Step.rising`, `Pass.Step.exists_openBehind`: one token of a line, and `Machine.Shallow`,
  `Machine.shallow_of_steps`: the bounds that all tokens together keep to.
* `Reader.shallow_between_tokens`: the bounds between any two tokens of a text.
-/

namespace MatrixReckoner

open Expression

namespace Operator

lemma priority_pos (op : Operator) : 0 < op.priority := by
  cases op <;> decide

lemma priority_le_two (op : Operator) : op.priority ≤ 2 := by
  cases op <;> decide

end Operator

/-! ### Waiting entries -/

/-- An entry may wait on top of another one: an operator on top of one that binds less tightly, and
a parenthesis everywhere. -/
def Pending.OnTop : Pending → Pending → Prop
  | .operator upper, .operator lower => lower.priority < upper.priority
  | _, _ => True

namespace Stacks

variable {s s' : Stacks} {op : Operator} {operands : List Operand} {pending : List Pending}
  {position : ℕ}

/-- Every entry may wait on top of the one below it. -/
def Rising (pending : List Pending) : Prop :=
  pending.IsChain Pending.OnTop

/-- The priority of the operator on top, if there is one. -/
def topPriority : List Pending → ℕ
  | .operator op :: _ => op.priority
  | _ => 0

lemma topPriority_le_two (pending : List Pending) : topPriority pending ≤ 2 := by
  unfold topPriority
  split
  · exact Operator.priority_le_two _
  · exact Nat.zero_le 2

lemma rising_operator_iff :
    Rising (.operator op :: pending) ↔ topPriority pending < op.priority ∧ Rising pending := by
  cases pending with
  | nil => simp [Rising, topPriority, op.priority_pos]
  | cons top pending =>
      cases top <;> simp [Rising, topPriority, Pending.OnTop, op.priority_pos]

lemma rising_openParen_iff : Rising (.openParen position :: pending) ↔ Rising pending := by
  cases pending with
  | nil => simp [Rising]
  | cons top pending => simp [Rising, Pending.OnTop]

/-- A parenthesis makes room for two operators, and what waits on top of the last one is counted by
its priority. -/
lemma operators_le (h : Rising pending) :
    operators pending ≤ 2 * openParens pending + topPriority pending := by
  induction pending with
  | nil => exact Nat.zero_le _
  | cons top pending ih =>
      cases top with
      | openParen position =>
          have hpending := ih (rising_openParen_iff.mp h)
          have htop := topPriority_le_two pending
          simp only [operators, openParens, topPriority]
          omega
      | operator op =>
          obtain ⟨htop, hrest⟩ := rising_operator_iff.mp h
          have hpending := ih hrest
          simp only [operators, openParens, topPriority]
          omega

/-- Operators on top of each other, the topmost first, bind less and less tightly. -/
lemma Rising.pairwise {ops : List Operator} (h : Rising pending)
    (hops : ops.map Pending.operator <:+: pending) :
    ops.Pairwise fun upper lower => lower.priority < upper.priority := by
  have hchain : (ops.map Operator.priority).IsChain (· > ·) := by
    have hinfix := h.infix hops
    rw [List.isChain_map] at hinfix ⊢
    exact hinfix
  rw [← List.pairwise_map (f := Operator.priority) (R := (· > ·))]
  exact hchain.pairwise

lemma length_le_two {ops : List Operator}
    (h : ops.Pairwise fun upper lower => lower.priority < upper.priority) : ops.length ≤ 2 := by
  match ops with
  | [] | [_] | [_, _] => simp
  | first :: second :: third :: _ =>
      have hfirst : second.priority < first.priority := (List.pairwise_cons.mp h).1 _ (by simp)
      have hsecond : third.priority < second.priority :=
        (List.pairwise_cons.mp (List.pairwise_cons.mp h).2).1 _ (by simp)
      have hle := first.priority_le_two
      have hpos := third.priority_pos
      omega

/-! ### What a token does to them -/

/-- What a token does to the waiting entries: nothing, it puts a parenthesis on top, it takes
entries away, or it puts an operator on top of one that binds less tightly. -/
inductive Changes (s s' : Stacks) : Prop where
  | kept : s'.pending = s.pending → Changes s s'
  | openGroup {position : ℕ} : s'.pending = .openParen position :: s.pending → Changes s s'
  | closeGroup : s'.pending <:+ s.pending → Changes s s'
  | operator {op : Operator} {rest : List Pending} : rest <:+ s.pending →
      topPriority rest < op.priority → s'.pending = .operator op :: rest → Changes s s'

lemma suffix_of_reduceWhile {priority : ℕ} (hpos : 0 < priority)
    (h : reduceWhile priority operands pending = .ok s) :
    s.pending <:+ pending ∧ topPriority s.pending < priority := by
  induction pending generalizing operands with
  | nil =>
      cases h
      exact ⟨List.suffix_rfl, hpos⟩
  | cons top pending ih =>
      cases top with
      | openParen position =>
          cases h
          exact ⟨List.suffix_rfl, hpos⟩
      | operator op =>
          rw [reduceWhile] at h
          split at h
          · next hlower =>
            cases h
            exact ⟨List.suffix_rfl, hlower⟩
          · obtain ⟨operands', -, h⟩ := bind_eq_ok_iff.mp h
            obtain ⟨hsuffix, htop⟩ := ih h
            exact ⟨hsuffix.trans (List.suffix_cons _ _), htop⟩

lemma suffix_of_reduceGroup (h : reduceGroup position operands pending = .ok s) :
    s.pending <:+ pending := by
  induction pending generalizing operands with
  | nil => cases h
  | cons top pending ih =>
      cases top with
      | openParen position =>
          cases h
          exact List.suffix_cons _ _
      | operator op =>
          obtain ⟨operands', -, h⟩ := bind_eq_ok_iff.mp h
          exact (ih h).trans (List.suffix_cons _ _)

lemma changes_of_pushOperator (h : s.pushOperator op = .ok s') : Changes s s' := by
  obtain ⟨t, ht, h⟩ := bind_eq_ok_iff.mp h
  cases h
  obtain ⟨hsuffix, htop⟩ := suffix_of_reduceWhile op.priority_pos ht
  exact .operator hsuffix htop rfl

/-- Waiting entries that rise go on rising. -/
lemma Rising.of_changes (h : Rising s.pending) (hs : Changes s s') : Rising s'.pending := by
  cases hs with
  | kept heq => exact heq ▸ h
  | openGroup heq => exact heq ▸ rising_openParen_iff.mpr h
  | closeGroup hsuffix => exact h.suffix hsuffix
  | operator hsuffix htop heq => exact heq ▸ rising_operator_iff.mpr ⟨htop, h.suffix hsuffix⟩

end Stacks

/-! ### Tokens -/

namespace Machine

variable {s s' : Machine} {after : Cursor} {ch : Char}

lemma changes_of_power (h : s.power after = .ok s') : s.stack.Changes s'.stack := by
  rw [power] at h
  split at h
  · obtain ⟨⟨a, c⟩, -, h⟩ := bind_eq_ok_iff.mp h
    cases h
    exact .kept rfl
  · cases h

lemma changes_of_number (h : s.number = .ok s') : s.stack.Changes s'.stack := by
  obtain ⟨_, -, h⟩ := bind_eq_ok_iff.mp h
  obtain ⟨⟨x, c⟩, -, h⟩ := bind_eq_ok_iff.mp h
  cases h
  exact .kept rfl

lemma changes_of_negative (h : s.negative after = .ok s') : s.stack.Changes s'.stack := by
  rw [negative] at h
  split at h
  · obtain ⟨⟨x, c⟩, -, h⟩ := bind_eq_ok_iff.mp h
    cases h
    exact .kept rfl
  · cases h

lemma changes_of_identity (h : s.identity after = .ok s') : s.stack.Changes s'.stack := by
  obtain ⟨_, -, h⟩ := bind_eq_ok_iff.mp h
  split at h
  · cases h
  · obtain ⟨a, -, h⟩ := bind_eq_ok_iff.mp h
    cases h
    exact .kept rfl

/-- **What a token does to the waiting entries**, if it is accepted. -/
theorem changes_of_step (h : s.step ch after = .ok s') : s.stack.Changes s'.stack := by
  rw [step] at h
  split_ifs at h
  · obtain ⟨_, -, h⟩ := bind_eq_ok_iff.mp h
    obtain ⟨⟨a, c⟩, -, h⟩ := bind_eq_ok_iff.mp h
    cases h
    exact .kept rfl
  · exact changes_of_identity h
  · obtain ⟨_, -, h⟩ := bind_eq_ok_iff.mp h
    cases h
    exact .openGroup rfl
  · obtain ⟨_, -, h⟩ := bind_eq_ok_iff.mp h
    obtain ⟨stack, hstack, h⟩ := bind_eq_ok_iff.mp h
    cases h
    exact .closeGroup (Stacks.suffix_of_reduceGroup hstack)
  · exact changes_of_power h
  · exact changes_of_negative h
  · exact changes_of_number h
  · split at h
    · obtain ⟨_, -, h⟩ := bind_eq_ok_iff.mp h
      obtain ⟨stack, hstack, h⟩ := bind_eq_ok_iff.mp h
      cases h
      exact Stacks.changes_of_pushOperator hstack
    · cases h

/-- The groups that are open behind a token are those that its text leaves open. -/
lemma openBehind_of_reads (h : Reads s s') :
    ∃ u, s.cursor.Takes u s'.cursor ∧ openBehind s.stack.groups u = some s'.stack.groups := by
  have hpaired {u : List Char} (hu : Paired u) (hgroups : s'.stack.groups = s.stack.groups) :
      openBehind s.stack.groups u = some s'.stack.groups := by
    simpa [hgroups] using openBehind_add hu s.stack.groups
  cases h with
  | leaf _ _ hu ht hgroups =>
      exact ⟨_, ht, hpaired (paired_of_foreign fun hch => Tree.notMem_of_leaf hch hu) hgroups⟩
  | openGroup _ _ ht hgroups => exact ⟨_, ht, by rw [hgroups]; rfl⟩
  | closeGroup _ _ ht hgroups => exact ⟨_, ht, by rw [hgroups]; rfl⟩
  | @power b w e _ _ hb he ht hgroups =>
      have hsign : Paired ['^'] := by decide
      have hb : Paired b := paired_of_foreign fun hch => hb.notMem hch
      have hw : Paired w := paired_of_foreign fun hch => Exponent.notMem hch he
      exact ⟨_, ht, hpaired ((hsign.append hb).append hw) hgroups⟩
  | @operator op _ _ ht hgroups => exact ⟨_, ht, hpaired (by cases op <;> decide) hgroups⟩

end Machine

/-! ### Lines -/

namespace Pass.Step

variable {s s' : Machine}

/-- A token of a line is accepted by the machine. -/
lemma exists_step (h : Pass.Step s s') :
    ∃ ch after, s.skipBlanks.cursor.Takes [ch] after ∧ s.skipBlanks.step ch after = .ok s' := by
  obtain ⟨ch, rest, hr, hne, htoken⟩ := h
  have hagrees := Pass.agrees_token hr hne
  rw [htoken, Cursor.bump_eq hr hne] at hagrees
  exact ⟨ch, _, Cursor.takes_singleton_iff.mpr ⟨hr, rfl⟩, hagrees.eq_ok⟩

/-- A token keeps the waiting entries rising. -/
lemma rising (h : Pass.Step s s') (hs : Stacks.Rising s.stack.pending) :
    Stacks.Rising s'.stack.pending := by
  obtain ⟨ch, after, -, hstep⟩ := h.exists_step
  exact Stacks.Rising.of_changes (s := s.skipBlanks.stack) hs (Machine.changes_of_step hstep)

/-- A token and the blanks before it leave open what is open behind it. -/
lemma exists_openBehind (h : Pass.Step s s') :
    ∃ u, s.cursor.Takes u s'.cursor ∧ openBehind s.stack.groups u = some s'.stack.groups := by
  obtain ⟨ch, after, ht, hstep⟩ := h.exists_step
  obtain ⟨b, hb, hblanks, -⟩ := Cursor.skipBlanks_eq_iff.mp (rfl : s.cursor.skipBlanks = _)
  obtain ⟨u, hu, hopen⟩ := Machine.openBehind_of_reads (Machine.step_reads ht hstep)
  have hb : Paired b := paired_of_foreign fun hch => hb.notMem hch
  have hkept : openBehind s.stack.groups b = some s.stack.groups := by
    simpa using openBehind_add hb s.stack.groups
  refine ⟨b ++ u, hblanks.append hu, ?_⟩
  rw [openBehind_append, hkept]
  exact hopen

end Pass.Step

namespace Machine

/-- Few entries wait on the stacks of a line that began at `c`. -/
structure Shallow (c : Cursor) (s : Machine) : Prop where
  /-- Operators that wait on top of each other, with no parenthesis between them, bind tighter and
  tighter, so there are at most two of them. -/
  rising : ∀ (above below : List Pending) (ops : List Operator),
    s.stack.pending = above ++ ops.map .operator ++ below →
      ops.Pairwise (fun upper lower => lower.priority < upper.priority) ∧ ops.length ≤ 2
  /-- A group that is open makes room for two operators. -/
  operators_le : Stacks.operators s.stack.pending ≤ 2 * (s.stack.groups + 1)
  /-- Every operand but one has its operator. -/
  operands_le : s.stack.operands.length ≤ 2 * (s.stack.groups + 1) + 1
  /-- The open groups are those of the text that was read. -/
  opened : ∃ u, c.Takes u s.cursor ∧ openBehind 0 u = some s.stack.groups

variable {c : Cursor} {s s' : Machine}

/-- The entries wait rising between any two tokens. -/
lemma rising_of_steps (h : Relation.ReflTransGen Pass.Step (.start c) s) :
    Stacks.Rising s.stack.pending := by
  induction h with
  | refl => exact List.isChain_nil
  | tail _ hstep ih => exact hstep.rising ih

lemma balanced_of_steps (h : Relation.ReflTransGen Pass.Step (.start c) s) : s.Balanced := by
  induction h with
  | refl => exact balanced_start c
  | tail _ hstep ih => exact hstep.balanced ih

lemma openBehind_of_steps (h : Relation.ReflTransGen Pass.Step (.start c) s) :
    ∃ u, c.Takes u s.cursor ∧ openBehind 0 u = some s.stack.groups := by
  induction h with
  | refl => exact ⟨[], .refl c, rfl⟩
  | tail _ hstep ih =>
      obtain ⟨u, hu, hopen⟩ := ih
      obtain ⟨v, hv, hopen'⟩ := hstep.exists_openBehind
      refine ⟨u ++ v, hu.append hv, ?_⟩
      rw [openBehind_append, hopen]
      exact hopen'

lemma shallow_of_steps (h : Relation.ReflTransGen Pass.Step (.start c) s) : Shallow c s := by
  have hrising := rising_of_steps h
  have hoperators : Stacks.operators s.stack.pending ≤ 2 * (s.stack.groups + 1) := by
    have hcount := Stacks.operators_le hrising
    have htop := Stacks.topPriority_le_two s.stack.pending
    rw [Stacks.groups]
    omega
  refine ⟨fun above below ops hops => ?_, hoperators, ?_, openBehind_of_steps h⟩
  · have hpairwise := hrising.pairwise ⟨above, below, hops.symm⟩
    exact ⟨hpairwise, Stacks.length_le_two hpairwise⟩
  · have hbalanced := balanced_of_steps h
    rw [Balanced] at hbalanced
    split at hbalanced <;> omega

end Machine

/-- **The stacks stay shallow.**  Between any two tokens of any line of a text, whatever was
requested before, the operators that wait in one group bind tighter and tighter from the bottom to
the top, so that at most two wait in each group, and there are at most three operands, and two more
for every parenthesis that is open. -/
theorem Reader.shallow_between_tokens (text : List Char) (requests : List Request)
    (request : Request) (s : Machine)
    (h : Relation.ReflTransGen Pass.Step (((ofText text).after requests).lineStart request) s) :
    Machine.Shallow (((ofText text).after requests).lineStart request).cursor s := by
  cases request with
  | evaluate => exact Machine.shallow_of_steps h
  | next => exact Machine.shallow_of_steps h

/-- Behind `1+2*(3+4*5` two operators wait in either group, and five operands: as many as one open
parenthesis allows. -/
theorem Reader.shallow_between_tokens_of_sums :
    ∃ s, Relation.ReflTransGen Pass.Step (.start (.ofText "1+2*(3+4*5".toList)) s ∧
      s.stack.pending = [.operator .mul, .operator .add, .openParen 4, .operator .mul,
        .operator .add] ∧
      s.stack.groups = 1 ∧ s.stack.operands.length = 2 * (1 + 1) + 1 ∧
      Machine.Shallow (.ofText "1+2*(3+4*5".toList) s := by
  let number (ch : Char) : Operand := .scalar (Numeral.toDouble ⟨[ch], []⟩)
  let state (rest : List Char) (previous : Marker) (operands : List Char) (pending : List Pending) :
      Machine := ⟨⟨rest, 10 - rest.length⟩, previous, ⟨operands.map number, pending⟩⟩
  let outer : List Pending := [.operator .mul, .operator .add]
  let s : Machine := state [] .scalar ['5', '4', '3', '2', '1']
    ([.operator .mul, .operator .add, .openParen 4] ++ outer)
  have hsum : Relation.ReflTransGen Pass.Step (.start (.ofText "1+2*(3+4*5".toList))
      (state "(3+4*5".toList .operator ['2', '1'] outer) :=
    (((Relation.ReflTransGen.single ⟨'1', _, rfl, by decide, rfl⟩).tail
      ⟨'+', _, rfl, by decide, rfl⟩).tail ⟨'2', _, rfl, by decide, rfl⟩).tail
      ⟨'*', _, rfl, by decide, rfl⟩
  have hgroup : Relation.ReflTransGen Pass.Step
      (state "(3+4*5".toList .operator ['2', '1'] outer) s :=
    (((((Relation.ReflTransGen.single ⟨'(', _, rfl, by decide, rfl⟩).tail
      ⟨'3', _, rfl, by decide, rfl⟩).tail ⟨'+', _, rfl, by decide, rfl⟩).tail
      ⟨'4', _, rfl, by decide, rfl⟩).tail ⟨'*', _, rfl, by decide, rfl⟩).tail
      ⟨'5', _, rfl, by decide, rfl⟩
  have hsteps := hsum.trans hgroup
  exact ⟨s, hsteps, rfl, rfl, rfl, shallow_between_tokens "1+2*(3+4*5".toList [] .evaluate s hsteps⟩

end MatrixReckoner
