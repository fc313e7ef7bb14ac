import MatrixReckoner.Proofs.Expression.Lines

/-!
A text whose lines end in a carriage return and a line feed.

* `Reader.withReturns`: a carriage return is put before every line feed.
* `Reader.splitOn_withReturns`: the lines that have an end get a carriage return, which is a blank.
* `Reader.results_withReturns`: the answers to the lines stay the same, but where an operand is
  missing at the end of a line, it is missing behind the carriage return.
-/

namespace MatrixReckoner.Reader

open Expression

/-- The text with a carriage return before every line feed. -/
def withReturns (text : List Char) : List Char :=
  text.flatMap fun ch => if ch = '\n' then ['\r', '\n'] else [ch]

variable {line rest : List Char}

lemma withReturns_line (hline : '\n' ∉ line) : withReturns line = line := by
  induction line with
  | nil => rfl
  | cons ch line ih =>
      obtain ⟨hne, hline⟩ := List.ne_and_not_mem_of_not_mem_cons hline
      rw [withReturns, List.flatMap_cons, if_neg hne.symm]
      exact congrArg (ch :: ·) (ih hline)

lemma withReturns_cons (hline : '\n' ∉ line) :
    withReturns (line ++ '\n' :: rest) = line ++ ['\r'] ++ '\n' :: withReturns rest := by
  calc withReturns (line ++ '\n' :: rest)
      = withReturns line ++ withReturns ('\n' :: rest) := List.flatMap_append
    _ = line ++ withReturns ('\n' :: rest) := by rw [withReturns_line hline]
    _ = line ++ ['\r'] ++ '\n' :: withReturns rest := by rw [List.append_assoc]; rfl

/-- The last line of a text, which has no end. -/
def lastLine (text : List Char) : List Char :=
  (text.splitOn '\n').getLastD []

/-- The lines of a text that have an end. -/
def endedLines (text : List Char) : List (List Char) :=
  (text.splitOn '\n').dropLast

lemma lastLine_eq_getLast (text : List Char) :
    lastLine text = (text.splitOn '\n').getLast (List.splitOn_ne_nil _ _) := by
  rw [lastLine, List.getLastD_eq_getLast?, List.getLast?_eq_some_getLast (List.splitOn_ne_nil _ _)]
  rfl

lemma splitOn_eq_endedLines (text : List Char) :
    text.splitOn '\n' = endedLines text ++ [lastLine text] := by
  rw [lastLine_eq_getLast]
  exact (List.dropLast_concat_getLast _).symm

lemma endedLines_cons (hline : '\n' ∉ line) :
    endedLines (line ++ '\n' :: rest) = line :: endedLines rest := by
  rw [endedLines, List.splitOn_append_cons_self_of_not_mem hline,
    List.dropLast_cons_of_ne_nil (List.splitOn_ne_nil _ _)]
  rfl

lemma lastLine_cons (hline : '\n' ∉ line) : lastLine (line ++ '\n' :: rest) = lastLine rest := by
  simp only [lastLine_eq_getLast, List.splitOn_append_cons_self_of_not_mem hline,
    List.getLast_cons (List.splitOn_ne_nil _ _)]

/-- Every line that has an end gets a carriage return. -/
lemma splitOn_withReturns (text : List Char) :
    (withReturns text).splitOn '\n' = (endedLines text).map (· ++ ['\r']) ++ [lastLine text] := by
  induction text using lineInduction with
  | last line hline =>
      rw [withReturns_line hline, splitOn_eq_endedLines, endedLines,
        List.splitOn_eq_singleton hline]
      rfl
  | cons line rest hline ih =>
      have hreturn : '\n' ∉ line ++ ['\r'] := by simpa using hline
      rw [withReturns_cons hline, List.splitOn_append_cons_self_of_not_mem hreturn, ih,
        endedLines_cons hline, lastLine_cons hline]
      rfl

lemma newline_notMem_of_endedLines {text : List Char} (h : line ∈ endedLines text) :
    '\n' ∉ line := by
  induction text using lineInduction with
  | last text htext =>
      rw [endedLines, List.splitOn_eq_singleton htext] at h
      cases h
  | cons first rest hfirst ih =>
      rw [endedLines_cons hfirst] at h
      rcases List.mem_cons.mp h with rfl | h
      · exact hfirst
      · exact ih h

/-! ### Answers -/

/-- The answers to the lines of a text that are not blank, those that have an end before the
last. -/
lemma results_eq_append (text : List Char) :
    (ofText text).results =
      ((endedLines text).filter (!·.all isBlank)).map Expression.evaluate ++
        ([lastLine text].filter (!·.all isBlank)).map Expression.evaluate := by
  have hresults : (ofText text).results =
      ((text.splitOn '\n').filter (!·.all isBlank)).map Expression.evaluate :=
    Remaining.results (remaining_splitOn text)
  rw [hresults, splitOn_eq_endedLines, List.filter_append, List.map_append]

/-- A carriage return at the end of a line only delays an operand that is missing there. -/
lemma evaluate_append_return (hline : '\n' ∉ line) :
    Expression.evaluate (line ++ ['\r']) =
      (Expression.evaluate line).mapError (.delayed line.length 1) :=
  Expression.evaluate_append_blanks hline (by decide)

lemma results_withReturns_eq_append (text : List Char) :
    (ofText (withReturns text)).results =
      ((endedLines text).filter (!·.all isBlank)).map (fun line =>
          (Expression.evaluate line).mapError (.delayed line.length 1)) ++
        ([lastLine text].filter (!·.all isBlank)).map Expression.evaluate := by
  have hresults : (ofText (withReturns text)).results =
      (((withReturns text).splitOn '\n').filter (!·.all isBlank)).map Expression.evaluate :=
    Remaining.results (remaining_splitOn _)
  have hblank : ((!·.all isBlank) ∘ (· ++ ['\r']) : List Char → Bool) = (!·.all isBlank) := by
    funext line
    have hreturn : isBlank '\r' = true := by decide
    simp [hreturn]
  rw [hresults, splitOn_withReturns, List.filter_append, List.map_append, List.filter_map, hblank,
    List.map_map]
  congr 1
  refine List.map_congr_left fun line hmem => ?_
  exact evaluate_append_return (newline_notMem_of_endedLines (List.mem_filter.mp hmem).1)

/-- An answer is not delayed unless an operand is missing where the line ends. -/
lemma mapError_delayed_eq_iff (x : Evaluation) (stop : ℕ) :
    x.mapError (.delayed stop 1) = x ↔ x ≠ .error (.missingOperand stop) := by
  rcases x with e | a
  · cases e with
    | missingOperand position =>
        by_cases hstop : position = stop <;> simp [Except.mapError, ExpressionError.delayed, hstop]
    | _ => simp [Except.mapError, ExpressionError.delayed]
  · simp [Except.mapError]

/-- **Line ends with a carriage return.** With a carriage return before every line feed the lines of
a text that are not blank have the same answers, except that an operand that is missing at the end
of a line, in front of the line feed, is missing one column later. So the answers to the whole text
are the same exactly if no operand is missing there. -/
theorem results_withReturns (text : List Char) :
    let ended := (endedLines text).filter (!·.all isBlank)
    let last := [lastLine text].filter (!·.all isBlank)
    (ofText text).results =
        ended.map Expression.evaluate ++ last.map Expression.evaluate ∧
      (ofText (withReturns text)).results =
        ended.map (fun line => (Expression.evaluate line).mapError (.delayed line.length 1)) ++
          last.map Expression.evaluate ∧
      ((ofText (withReturns text)).results = (ofText text).results ↔
        ∀ line ∈ ended, Expression.evaluate line ≠ .error (.missingOperand line.length)) := by
  intro ended last
  have hresults := results_eq_append text
  have hreturns := results_withReturns_eq_append text
  refine ⟨hresults, hreturns, ?_⟩
  rw [hresults, hreturns, List.append_left_inj, List.map_inj_left]
  exact forall₂_congr fun line _ => mapError_delayed_eq_iff _ _

/-- Behind the operator of `[1]+` an operand is missing at the end of the line: at column four, or
behind the carriage return. -/
theorem results_withReturns_ne :
    let text := "[1]+\n".toList
    '\r' ∉ text ∧ (ofText text).results = [.error (.missingOperand 4)] ∧
      (ofText (withReturns text)).results = [.error (.missingOperand 5)] ∧
      (ofText (withReturns text)).results ≠ (ofText text).results := by
  decide +kernel

end MatrixReckoner.Reader
