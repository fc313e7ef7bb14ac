import MatrixReckoner.Proofs.Expression.Evaluation
import MatrixReckoner.Proofs.Expression.OnLine

/-!
A reader answers line by line.

* `Reader.lineInduction`: induction on the lines of a text.
* `Reader.Remaining`: the lines that remain to be read at a place.
* `Reader.Remaining.skipLine`, `Reader.Remaining.skipBlankLines`: the lines that remain behind a
  line, and behind blank lines.
* `Reader.lineAnswer`, `Reader.lineAnswers`: the answers that lines give, each by itself.
* `Reader.Remaining.answer`: one request is answered as the lines that remain answer it.
* `Reader.answers_eq_lineAnswers`: so are all requests.
-/

namespace MatrixReckoner

open Expression

namespace Reader

/-! ### The lines that remain -/

/-- The lines of a text that remain to be read at a place: the first of them starts there, and the
last ends at the column `stop`, where the place is when none remains. -/
inductive Remaining (stop : ℕ) : List (List Char) → Cursor → Prop where
  | none : Remaining stop [] ⟨[], stop⟩
  | last {line : List Char} (hline : '\n' ∉ line) (hstop : line.length = stop) :
    Remaining stop [line] ⟨line, 0⟩
  | cons {line rest : List Char} {lines : List (List Char)} (hline : '\n' ∉ line)
    (hne : lines ≠ []) (h : Remaining stop lines ⟨rest, 0⟩) :
    Remaining stop (line :: lines) ⟨line ++ '\n' :: rest, 0⟩

/-- The column at the end of a text. -/
def lastColumn (text : List Char) : ℕ :=
  ((text.splitOn '\n').getLast (List.splitOn_ne_nil _ _)).length

/-- A text is a line, or a line with its end and another text. -/
@[elab_as_elim]
lemma lineInduction {P : List Char → Prop} (last : ∀ line, '\n' ∉ line → P line)
    (cons : ∀ line rest, '\n' ∉ line → P rest → P (line ++ '\n' :: rest)) (text : List Char) :
    P text := by
  by_cases hline : '\n' ∈ text
  · obtain ⟨line, rest, htext, hfirst⟩ := List.eq_append_cons_of_mem hline
    rw [htext]
    exact cons line rest hfirst (lineInduction last cons rest)
  · exact last text hline
termination_by text.length
decreasing_by
  rw [htext, List.length_append, List.length_cons]
  omega

lemma remaining_splitOn (text : List Char) :
    Remaining (lastColumn text) (text.splitOn '\n') (.ofText text) := by
  induction text using lineInduction with
  | last line hline =>
      have hlast : lastColumn line = line.length := by
        simp only [lastColumn, List.splitOn_eq_singleton hline, List.getLast_singleton]
      rw [List.splitOn_eq_singleton hline, hlast]
      exact .last hline rfl
  | cons line rest hline ih =>
      have hlast : lastColumn (line ++ '\n' :: rest) = lastColumn rest := by
        simp only [lastColumn, List.splitOn_append_cons_self_of_not_mem hline,
          List.getLast_cons (List.splitOn_ne_nil _ _)]
      rw [List.splitOn_append_cons_self_of_not_mem hline, hlast]
      exact .cons hline (List.splitOn_ne_nil _ _) ih

variable {stop : ℕ} {line : List Char} {lines : List (List Char)} {c : Cursor}

lemma Remaining.exists_append (h : Remaining stop (line :: lines) c) :
    '\n' ∉ line ∧ ∃ tail, LineEnds tail ∧ c = ⟨line ++ tail, 0⟩ := by
  cases h with
  | last hline => exact ⟨hline, [], Or.inl rfl, by rw [List.append_nil]⟩
  | cons hline => exact ⟨hline, _, Or.inr ⟨_, rfl⟩, rfl⟩

/-- The next line has the value that it has by itself; behind the last one, an operand is missing at
the end of that. -/
lemma Remaining.run_start (h : Remaining stop lines c) :
    (Machine.start c).run = match lines with
      | [] => .error (.missingOperand stop)
      | line :: _ => Expression.evaluate line := by
  cases lines with
  | nil =>
      cases h
      rw [Machine.run_eq]
      rfl
  | cons line lines =>
      obtain ⟨hline, tail, htail, rfl⟩ := h.exists_append
      have htake : (line ++ tail).takeWhile (· != '\n') = line := by
        rw [List.takeWhile_append_of_pos fun ch hch =>
          bne_iff_ne.mpr (ne_of_mem_of_not_mem hch hline)]
        rcases htail with rfl | ⟨rest, rfl⟩ <;> simp
      have hvalue := Expression.evaluate_takeWhile (line ++ tail)
      rw [htake] at hvalue
      exact hvalue.symm

lemma Remaining.skipLine (h : Remaining stop lines c) :
    Remaining stop lines.tail c.skipLine := by
  have hspan : ∀ {line tail : List Char}, '\n' ∉ line → LineEnds tail →
      Cursor.span (· != '\n') ⟨line ++ tail, 0⟩ = (line, ⟨tail, line.length⟩) := by
    intro line tail hline htail
    refine Cursor.span_eq_iff.mpr ⟨⟨rfl, by simp⟩, fun ch hch => ?_, ?_⟩
    · exact bne_iff_ne.mpr (ne_of_mem_of_not_mem hch hline)
    · rcases htail with rfl | ⟨rest, rfl⟩ <;> simp
  cases h with
  | none => exact .none
  | @last line hline hstop =>
      have h := hspan hline (Or.inl rfl)
      rw [List.append_nil] at h
      rw [Cursor.skipLine, h]
      exact hstop ▸ .none
  | @cons line rest lines hline hne h =>
      rw [Cursor.skipLine, hspan hline (Or.inr ⟨rest, rfl⟩)]
      exact h

/-! ### Blank lines -/

lemma exists_of_not_blank (h : line.all isBlank = false) :
    ∃ b ch w, line = b ++ ch :: w ∧ (∀ ch ∈ b, isBlank ch) ∧ isBlank ch = false := by
  induction line with
  | nil => cases h
  | cons ch w ih =>
      by_cases hch : isBlank ch
      · obtain ⟨b, ch', w', rfl, hb, hch'⟩ := ih (by simpa [hch] using h)
        exact ⟨ch :: b, ch', w', rfl, by simpa [hch] using hb, hch'⟩
      · exact ⟨[], ch, w, rfl, by simp, by simpa using hch⟩

lemma blanks_of_notMem {b : List Char} (hline : '\n' ∉ b) (hb : ∀ ch ∈ b, isBlank ch) :
    Blanks b := fun ch hch => by
  have hne : ch ≠ '\n' := ne_of_mem_of_not_mem hch hline
  simp [isInlineBlank, hb ch hch, hne]

/-- In a line that is not blank the blanks end before the line does. -/
lemma Remaining.exists_skipBlanks (h : Remaining stop (line :: lines) c)
    (hblank : line.all isBlank = false) :
    ∃ ch rest, c.skipBlanks.rest = ch :: rest ∧ ch ≠ '\n' := by
  obtain ⟨hline, tail, -, rfl⟩ := h.exists_append
  obtain ⟨b, ch, w, rfl, hb, hch⟩ := exists_of_not_blank hblank
  rw [List.append_assoc]
  have hskip : Cursor.skipBlanks ⟨b ++ (ch :: w ++ tail), 0⟩ = ⟨ch :: w ++ tail, b.length⟩ :=
    Cursor.skipBlanks_eq_of_cons (blanks_of_notMem (by simp_all) hb) ⟨rfl, by simp⟩ rfl
      (Cursor.isInlineBlank_eq_false hch)
  refine ⟨ch, w ++ tail, by rw [hskip]; rfl, ?_⟩
  rintro rfl
  exact absurd hch (by decide)

lemma skipBlankLines_eq (c : Cursor) :
    Reader.skipBlankLines c = match c.skipBlanks.rest with
      | [] => c.skipBlanks
      | ch :: rest => if ch = '\n' then Reader.skipBlankLines ⟨rest, 0⟩ else c.skipBlanks := by
  rw [Reader.skipBlankLines]
  split
  · next h => rw [h]
  · next h => rw [h]

lemma Remaining.skipBlankLines_of_not_blank (h : Remaining stop (line :: lines) c)
    (hblank : line.all isBlank = false) : Reader.skipBlankLines c = c.skipBlanks := by
  obtain ⟨ch, rest, hr, hne⟩ := h.exists_skipBlanks hblank
  rw [skipBlankLines_eq, hr]
  exact if_neg hne

/-- Skipping blank lines leads to the blanks of the first line that is not blank. -/
lemma Remaining.skipBlankLines (h : Remaining stop lines c) :
    ∃ c', Remaining stop (lines.dropWhile (·.all isBlank)) c' ∧
      Reader.skipBlankLines c = c'.skipBlanks := by
  have hskip : ∀ {line tail : List Char}, '\n' ∉ line → line.all isBlank →
      Cursor.skipBlanks ⟨line ++ tail, 0⟩ = Cursor.skipBlanks ⟨tail, line.length⟩ := by
    intro line tail hline hblank
    have ht : Cursor.Takes ⟨line ++ tail, 0⟩ line ⟨tail, line.length⟩ := ⟨rfl, by simp⟩
    exact ht.skipBlanks_eq (blanks_of_notMem hline (List.all_eq_true.mp hblank))
  induction h with
  | none => exact ⟨_, .none, skipBlankLines_eq _⟩
  | @last line hline hstop =>
      cases hblank : line.all isBlank with
      | true =>
          have h : Cursor.skipBlanks ⟨line ++ [], 0⟩ = Cursor.skipBlanks ⟨[], line.length⟩ :=
            hskip hline hblank
          rw [List.append_nil, hstop] at h
          rw [List.dropWhile_cons_of_pos (by simp [hblank])]
          exact ⟨_, .none, by rw [skipBlankLines_eq, h]; rfl⟩
      | false =>
          have h : Remaining stop [line] ⟨line, 0⟩ := .last hline hstop
          rw [List.dropWhile_cons_of_neg (by simp [hblank])]
          exact ⟨_, h, h.skipBlankLines_of_not_blank hblank⟩
  | @cons line rest lines hline hne h ih =>
      cases hblank : line.all isBlank with
      | true =>
          rw [List.dropWhile_cons_of_pos (by simp [hblank]), skipBlankLines_eq, hskip hline hblank]
          exact ih
      | false =>
          have h : Remaining stop (line :: lines) ⟨line ++ '\n' :: rest, 0⟩ := .cons hline hne h
          rw [List.dropWhile_cons_of_neg (by simp [hblank])]
          exact ⟨_, h, h.skipBlankLines_of_not_blank hblank⟩

/-! ### Answers -/

/-- The answer of lines to a request, and the lines that remain; when none does, an operand is
missing at the column `stop`, where the last line ends. -/
def lineAnswer (stop : ℕ) (lines : List (List Char)) :
    Request → Option Evaluation × List (List Char)
  | .evaluate =>
    match lines with
    | [] => (some (.error (.missingOperand stop)), [])
    | line :: lines => (some (Expression.evaluate line), lines)
  | .next =>
    match lines.dropWhile (·.all isBlank) with
    | [] => (none, [])
    | line :: lines => (some (Expression.evaluate line), lines)

/-- The answers of lines to requests in turn. -/
def lineAnswers (stop : ℕ) (lines : List (List Char)) : List Request → List (Option Evaluation)
  | [] => []
  | request :: requests =>
    let (value, lines) := lineAnswer stop lines request
    value :: lineAnswers stop lines requests

variable {r : Reader}

lemma not_blank_of_dropWhile_eq {lines' : List (List Char)}
    (h : lines.dropWhile (·.all isBlank) = line :: lines') : line.all isBlank = false := by
  have hhead := List.head?_dropWhile_not (·.all isBlank) lines
  rwa [h] at hhead

/-- Blanks before a line do not change its value. -/
lemma run_start_skipBlanks (c : Cursor) :
    (Machine.start c.skipBlanks).run = (Machine.start c).run := by
  obtain ⟨b, hb, ht, -⟩ := Cursor.skipBlanks_eq_iff.mp (rfl : c.skipBlanks = c.skipBlanks)
  exact (Machine.run_blanks hb ht).symm

/-- The next answer is that of the lines that remain, and the same lines remain behind it. -/
lemma Remaining.answer (h : Remaining stop lines r.machine.cursor) (request : Request) :
    (r.answer request).1 = (lineAnswer stop lines request).1 ∧
      Remaining stop (lineAnswer stop lines request).2 (r.answer request).2.machine.cursor := by
  cases request with
  | evaluate =>
      change some r.evaluate.1 = _ ∧ Remaining stop _ r.evaluate.2.machine.cursor
      rw [evaluate_fst, cursor_evaluate, h.run_start]
      have hskip := h.skipLine
      cases lines <;> exact ⟨rfl, hskip⟩
  | next =>
      obtain ⟨c, hc, hskip⟩ := h.skipBlankLines
      have hcursor : r.skipBlanks.machine.cursor = c.skipBlanks := hskip
      change r.next.1 = _ ∧ Remaining stop _ r.next.2.machine.cursor
      rw [next, lineAnswer]
      cases hlines : lines.dropWhile (·.all isBlank) with
      | nil =>
          rw [hlines] at hc
          cases hc
          dsimp only
          rw [if_pos (by rw [hcursor]; rfl)]
          exact ⟨rfl, hcursor ▸ .none⟩
      | cons line lines' =>
          have hblank := not_blank_of_dropWhile_eq hlines
          rw [hlines] at hc
          obtain ⟨ch, rest, hr, -⟩ := hc.exists_skipBlanks hblank
          dsimp only
          rw [if_neg (by rw [hcursor, hr]; exact List.cons_ne_nil ch rest)]
          change some r.skipBlanks.evaluate.1 = _ ∧
            Remaining stop _ r.skipBlanks.evaluate.2.machine.cursor
          rw [evaluate_fst, cursor_evaluate, hcursor, c.sameLine_skipBlanks.skipLine_eq,
            run_start_skipBlanks, hc.run_start]
          exact ⟨rfl, hc.skipLine⟩

lemma Remaining.answers (h : Remaining stop lines r.machine.cursor) (requests : List Request) :
    r.answers requests = lineAnswers stop lines requests := by
  induction requests generalizing r lines with
  | nil => rfl
  | cons request requests ih =>
      obtain ⟨hvalue, hremain⟩ := h.answer request
      rw [Reader.answers, lineAnswers]
      dsimp only
      rw [hvalue, ih hremain]

lemma filter_dropWhile_not {α : Type} (p : α → Bool) (l : List α) :
    (l.dropWhile p).filter (!p ·) = l.filter (!p ·) := by
  induction l with
  | nil => rfl
  | cons a l ih => by_cases h : p a <;> simp [h, ih]

/-- The lines that are not blank are answered in turn, until none remains. -/
lemma Remaining.results (h : Remaining stop lines r.machine.cursor) :
    r.results = (lines.filter (!·.all isBlank)).map Expression.evaluate := by
  fun_induction Reader.results r generalizing lines with
  | case1 r r' hnext =>
    obtain ⟨hvalue, -⟩ := h.answer .next
    rw [Reader.answer, hnext, lineAnswer] at hvalue
    rw [← filter_dropWhile_not]
    cases hlines : lines.dropWhile (·.all isBlank) with
    | nil => rfl
    | cons line lines' => rw [hlines] at hvalue; cases hvalue
  | case2 r value r' hnext ih =>
    obtain ⟨hvalue, hremain⟩ := h.answer .next
    rw [Reader.answer, hnext, lineAnswer] at hvalue hremain
    rw [← filter_dropWhile_not]
    cases hlines : lines.dropWhile (·.all isBlank) with
    | nil => rw [hlines] at hvalue; cases hvalue
    | cons line lines' =>
      rw [hlines] at hvalue hremain
      cases hvalue
      rw [ih hremain, List.filter_cons_of_pos (by simp [not_blank_of_dropWhile_eq hlines]),
        List.map_cons]

/-- **A reader answers line by line.**  For every text and every sequence of requests the answers
are those that the lines of the text give, each by itself; all lines that are not blank are answered
in turn; and the value of a text is that of its first line. -/
theorem answers_eq_lineAnswers (text : List Char) :
    (∀ requests : List Request, (ofText text).answers requests =
      lineAnswers (lastColumn text) (text.splitOn '\n') requests) ∧
    (ofText text).results =
      ((text.splitOn '\n').filter (!·.all isBlank)).map Expression.evaluate ∧
    Expression.evaluate text = Expression.evaluate (text.takeWhile (· != '\n')) := by
  have h : Remaining (lastColumn text) (text.splitOn '\n') (ofText text).machine.cursor :=
    remaining_splitOn text
  exact ⟨h.answers, h.results, (Expression.evaluate_takeWhile text).symm⟩

end Reader

end MatrixReckoner
