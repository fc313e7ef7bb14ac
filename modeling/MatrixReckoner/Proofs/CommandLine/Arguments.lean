import MatrixReckoner.Proofs.CommandLine.TextInput

/-!
Expressions among the arguments and on the lines of the standard input.

* `expressionArguments`: the arguments that give expressions, each behind an option of its own.
* `Hyphened`: the texts that are read as options and not as values.
* `Reading.foldlM_expressionArguments`, `Reading.Refuses`: what is read of the arguments if no
  expression is hyphened, and if one is.
* `evaluateLines_intercalate`: lines have the same outcome by themselves and in an input.
* `Reading.settle`: what is left to do behind the last argument.
* `run_expressionArguments`: the expressions have the outcome that they have as lines, unless one of
  them is hyphened; then the arguments are refused.
-/

namespace MatrixReckoner.CommandLine

open Expression

/-- The arguments that give expressions. -/
def expressionArguments (expressions : List String) : List String :=
  expressions.flatMap fun x => ["-e", x]

/-- The arguments that ask for a run to keep going, if it is to. -/
def keepGoingArguments (keepGoing : Bool) : List String :=
  if keepGoing then ["--keep-going"] else []

/-- A text that starts with a dash and is not only that. -/
def Hyphened (x : String) : Prop :=
  x.toList.head? = some '-' ∧ x ≠ "-"

instance (x : String) : Decidable (Hyphened x) :=
  inferInstanceAs (Decidable (_ ∧ _))

variable {x : String} {expressions rest : List String} {options : Options}

lemma expressionArguments_cons (x : String) (expressions : List String) :
    expressionArguments (x :: expressions) = "-e" :: x :: expressionArguments expressions :=
  rfl

/-! ### Values that are words -/

lemma ofText_of_not_hyphened (hx : ¬ Hyphened x) : Argument.ofText x.toList = .word x.toList := by
  by_cases hdash : x = "-"
  · subst hdash
    rfl
  · have hhead : x.toList.head? ≠ some '-' := fun h => hx ⟨h, hdash⟩
    cases htext : x.toList with
    | nil => rfl
    | cons ch text =>
        rw [htext, List.head?_cons] at hhead
        unfold Argument.ofText
        split <;> simp_all

/-- A hyphened text has the form of an option. -/
lemma ofText_of_hyphened (hx : Hyphened x) :
    Argument.ofText x.toList = .escape ∨
      (∃ name value, Argument.ofText x.toList = .long name value) ∨
      ∃ letter letters, Argument.ofText x.toList = .short (letter :: letters) := by
  obtain ⟨hhead, hdash⟩ := hx
  obtain ⟨text, htext⟩ := List.head?_eq_some_iff.mp hhead
  have hne : text ≠ [] := by
    rintro rfl
    exact hdash (String.toList_inj.mp (htext.trans rfl))
  rw [htext]
  unfold Argument.ofText
  split
  · simp_all
  · exact Or.inl rfl
  · dsimp only
    split <;> exact Or.inr (Or.inl ⟨_, _, rfl⟩)
  · next letters _ _ _ hlist =>
      obtain ⟨letter, letters', rfl⟩ := List.exists_cons_of_ne_nil hne
      obtain rfl : letter :: letters' = letters := (List.cons_inj_right '-').mp hlist
      exact Or.inr (Or.inr ⟨letter, letters', rfl⟩)
  · next hshort =>
      exact absurd rfl (hshort text)

namespace Reading

lemma step_expression (options : Options) :
    (⟨options, none, false⟩ : Reading).step "-e" = .ok ⟨options, some .expression, false⟩ :=
  rfl

lemma step_of_not_hyphened (options : Options) (hx : ¬ Hyphened x) :
    (⟨options, some .expression, false⟩ : Reading).step x =
      .ok ⟨{ options with expressions := options.expressions ++ [x] }, none, false⟩ := by
  rw [step, if_neg Bool.false_ne_true, ofText_of_not_hyphened hx]
  rfl

/-- Expressions that are not hyphened are read in turn. -/
lemma foldlM_expressionArguments (options : Options) (h : ∀ x ∈ expressions, ¬ Hyphened x) :
    (expressionArguments expressions).foldlM step ⟨options, none, false⟩ =
      .ok ⟨{ options with expressions := options.expressions ++ expressions }, none, false⟩ := by
  induction expressions generalizing options with
  | nil =>
      rw [List.append_nil]
      rfl
  | cons x expressions ih =>
      have hx : ¬ Hyphened x := h x List.mem_cons_self
      have hrest : ∀ y ∈ expressions, ¬ Hyphened y := fun y hy => h y (List.mem_cons_of_mem x hy)
      rw [expressionArguments_cons, List.foldlM_cons, step_expression]
      dsimp only [bind, Except.bind]
      rw [List.foldlM_cons, step_of_not_hyphened options hx]
      dsimp only [bind, Except.bind]
      rw [ih _ hrest, List.append_assoc, List.singleton_append]

lemma step_keepGoing {s : Reading} (hescaped : s.escaped = false) :
    s.step "--keep-going" = s.switch .keepGoing := by
  have htext : Argument.ofText "--keep-going".toList = .long "keep-going".toList none := by
    decide
  rw [step, if_neg (Bool.eq_false_iff.mp hescaped), htext]
  rfl

lemma foldlM_keepGoingArguments (keepGoing : Bool) (hoptions : options.keepGoing = false) :
    (keepGoingArguments keepGoing).foldlM step ⟨options, none, false⟩ =
      .ok ⟨{ options with keepGoing }, none, false⟩ := by
  cases keepGoing with
  | false =>
      obtain ⟨debug, logLevel, _, expressions, file⟩ := options
      obtain rfl := hoptions
      rfl
  | true =>
      rw [keepGoingArguments, if_pos rfl, List.foldlM_cons, step_keepGoing rfl, switch]
      simp [nothingDue, hoptions]

/-! ### Values that are refused -/

/-- Arguments are refused: one of them is, or a value is due behind them. -/
def Refuses (s : Reading) (arguments : List String) : Prop :=
  (arguments.foldlM step s >>= nothingDue) = .error .usage

variable {s s' : Reading} {arguments : List String}

lemma refuses_of_step (h : s.step x = .error .usage) : s.Refuses (x :: rest) := by
  rw [Refuses, List.foldlM_cons, h]
  rfl

lemma Refuses.cons (h : s.step x = .ok s') (hrest : s'.Refuses rest) : s.Refuses (x :: rest) := by
  rw [Refuses, List.foldlM_cons, h]
  exact hrest

lemma Refuses.append (h : arguments.foldlM step s = .ok s') (hrest : s'.Refuses rest) :
    s.Refuses (arguments ++ rest) := by
  rw [Refuses, List.foldlM_append, h]
  exact hrest

/-- While a value is due, no option is read. -/
lemma switch_of_due (option : Switch) (hdue : s.due.isSome) : s.switch option = .error .usage := by
  have h : s.nothingDue = .error .usage := if_pos hdue
  rw [switch.eq_def, h]
  rfl

lemma setting_of_due (option : Setting) (value : Option (List Char)) (hdue : s.due.isSome) :
    s.setting option value = .error .usage := by
  have h : s.nothingDue = .error .usage := if_pos hdue
  rw [setting.eq_def, h]
  rfl

lemma long_of_due (name : List Char) (value : Option (List Char)) (hdue : s.due.isSome) :
    s.long name value = .error .usage := by
  unfold long
  split
  · exact switch_of_due _ hdue
  · exact setting_of_due _ _ hdue
  · rfl

lemma short_of_due (letter : Char) (letters : List Char) (hdue : s.due.isSome) :
    s.short (letter :: letters) = .error .usage := by
  rw [short.eq_def]
  dsimp only
  split
  · rw [switch_of_due _ hdue]
    rfl
  · split <;> exact setting_of_due _ _ hdue
  · rfl

/-- Behind two dashes alone, a value that is due is never given. -/
lemma refuses_of_escaped (hescaped : s.escaped = true) (hdue : s.due.isSome)
    (arguments : List String) : s.Refuses arguments := by
  cases arguments with
  | nil =>
      change s.nothingDue = _
      rw [nothingDue, if_pos hdue]
  | cons x rest =>
      refine refuses_of_step ?_
      rw [step, if_pos hescaped, file, nothingDue, if_pos hdue]
      rfl

/-- A hyphened text is not the value that is due. -/
lemma refuses_of_hyphened (options : Options) (hx : Hyphened x) (rest : List String) :
    (⟨options, some .expression, false⟩ : Reading).Refuses (x :: rest) := by
  rcases ofText_of_hyphened hx with htext | ⟨name, value, htext⟩ | ⟨letter, letters, htext⟩
  · have hstep : (⟨options, some .expression, false⟩ : Reading).step x =
        .ok ⟨options, some .expression, true⟩ := by
      rw [step, if_neg Bool.false_ne_true, htext]
    exact .cons hstep (refuses_of_escaped rfl rfl rest)
  · refine refuses_of_step ?_
    rw [step, if_neg Bool.false_ne_true, htext]
    exact long_of_due name value rfl
  · refine refuses_of_step ?_
    rw [step, if_neg Bool.false_ne_true, htext]
    exact short_of_due letter letters rfl

/-- Expressions of which one is hyphened are refused. -/
lemma refuses_expressionArguments (options : Options) (h : ∃ x ∈ expressions, Hyphened x)
    (rest : List String) :
    (⟨options, none, false⟩ : Reading).Refuses (expressionArguments expressions ++ rest) := by
  induction expressions generalizing options with
  | nil =>
      obtain ⟨x, hx, -⟩ := h
      cases hx
  | cons x expressions ih =>
      rw [expressionArguments_cons, List.cons_append, List.cons_append]
      refine .cons (step_expression options) ?_
      by_cases hx : Hyphened x
      · exact refuses_of_hyphened options hx _
      · have hrest : ∃ y ∈ expressions, Hyphened y := by
          simpa [hx] using h
        exact .cons (step_of_not_hyphened options hx) (ih _ hrest)

/-! ### Expressions around the option to keep going -/

variable {before after : List String}

lemma foldlM_arguments (keepGoing : Bool) (hbefore : ∀ x ∈ before, ¬ Hyphened x) :
    (expressionArguments before ++ keepGoingArguments keepGoing).foldlM step .start =
      .ok ⟨⟨false, none, keepGoing, before, none⟩, none, false⟩ := by
  have hfold : (expressionArguments before).foldlM step .start =
      .ok ⟨⟨false, none, false, before, none⟩, none, false⟩ :=
    foldlM_expressionArguments _ hbefore
  rw [List.foldlM_append, hfold]
  exact foldlM_keepGoingArguments keepGoing rfl

lemma refuses_arguments (keepGoing : Bool) (h : ∃ x ∈ before ++ after, Hyphened x) :
    start.Refuses
      (expressionArguments before ++ keepGoingArguments keepGoing ++
        expressionArguments after) := by
  by_cases hbefore : ∃ x ∈ before, Hyphened x
  · rw [List.append_assoc]
    exact refuses_expressionArguments _ hbefore _
  · have hafter : ∃ x ∈ after, Hyphened x := by
      simp only [List.mem_append, or_and_right, exists_or] at h
      exact h.resolve_left hbefore
    have hrefuses := refuses_expressionArguments ⟨false, none, keepGoing, before, none⟩ hafter []
    rw [List.append_nil] at hrefuses
    exact .append (foldlM_arguments keepGoing fun x hx hyphened => hbefore ⟨x, hx, hyphened⟩)
      hrefuses

end Reading

/-! ### Lines of the standard input -/

variable {line text : List Char} {lines : List (List Char)} {keepGoing : Bool}

lemma noReturns_of_notMem (hline : '\n' ∉ line) : NoReturns line := fun h =>
  hline (h.subset (by simp))

lemma NoReturns.cons (hline : '\n' ∉ line) (hreturn : line.getLast? ≠ some '\r')
    (htext : NoReturns text) : NoReturns (line ++ '\n' :: text) := by
  induction line with
  | nil =>
      intro h
      rcases List.infix_cons_iff.mp h with hprefix | hinfix
      · simp at hprefix
      · exact htext hinfix
  | cons ch line ih =>
      obtain ⟨-, hline'⟩ := List.ne_and_not_mem_of_not_mem_cons hline
      intro h
      rcases List.infix_cons_iff.mp h with hprefix | hinfix
      · -- the line feed of the prefix would be in the line, or right behind its only character
        obtain ⟨rfl, hprefix⟩ := List.cons_prefix_cons.mp hprefix
        cases line with
        | nil => exact hreturn rfl
        | cons ch' line => simp_all
      · refine ih hline' (fun hlast => hreturn ?_) hinfix
        rw [List.getLast?_cons, hlast]
        rfl

/-- Lines without carriage returns at their ends make up a text without any before line feeds. -/
lemma noReturns_intercalate
    (h : ∀ line ∈ lines, '\n' ∉ line ∧ line.getLast? ≠ some '\r') :
    NoReturns (['\n'].intercalate lines) := by
  induction lines with
  | nil => exact noReturns_of_notMem (by simp)
  | cons line lines ih =>
      obtain ⟨hline, hreturn⟩ := h line List.mem_cons_self
      cases lines with
      | nil =>
          rw [List.intercalate_singleton]
          exact noReturns_of_notMem hline
      | cons line' lines =>
          have hrest : NoReturns (['\n'].intercalate (line' :: lines)) :=
            ih fun line hmem => h line (List.mem_cons_of_mem _ hmem)
          rw [List.intercalate_cons_cons, List.append_assoc]
          exact hrest.cons hline hreturn

/-- Lines have the same outcome by themselves and as the lines of an input. -/
lemma evaluateLines_intercalate (keepGoing : Bool) (hne : lines ≠ [])
    (h : ∀ line ∈ lines, '\n' ∉ line ∧ line.getLast? ≠ some '\r') :
    evaluateLines keepGoing (Input.bytes (encodeText (['\n'].intercalate lines))).lines =
      evaluateLines keepGoing (lines.map .ok) := by
  have hsplit : (['\n'].intercalate lines).splitOn '\n' = lines :=
    List.splitOn_intercalate '\n' (fun line hline => (h line hline).1) hne
  have hresults : (Reader.ofText (['\n'].intercalate lines)).results =
      ((['\n'].intercalate lines).splitOn '\n' |>.filter (!·.all isBlank)).map
        Expression.evaluate :=
    Reader.Remaining.results (Reader.remaining_splitOn _)
  rw [evaluateLines_encodeText keepGoing (noReturns_intercalate h), hresults, hsplit,
    evaluateLines_map_ok]

/-! ### Runs -/

variable {world : World} {arguments : List String}

/-- The options behind the last argument, with what the environment adds to them. -/
def Reading.settle (environment : String → Option String) (s : Reading) : Except Stop Options := do
  s.nothingDue
  let debug ← environmentSwitch s.options.debug (environment "MATCALC_DEBUG")
  let logLevel ← environmentLevel s.options.logLevel (environment "MATCALC_LOG_LEVEL")
  let keepGoing ← environmentSwitch s.options.keepGoing (environment "MATCALC_KEEP_GOING")
  if s.options.file.isSome && !s.options.expressions.isEmpty then
    throw .usage
  else
    return { s.options with debug, logLevel, keepGoing }

lemma read_eq_settle (arguments : List String) (environment : String → Option String) :
    Options.read arguments environment =
      arguments.foldlM Reading.step .start >>= Reading.settle environment :=
  rfl

lemma read_of_foldlM {s : Reading} (environment : String → Option String)
    (h : arguments.foldlM Reading.step .start = .ok s) :
    Options.read arguments environment = s.settle environment := by
  rw [read_eq_settle, h]
  rfl

lemma run_of_refuses (h : Reading.start.Refuses arguments) :
    run world arguments = ⟨2, [], []⟩ := by
  have hread : Options.read arguments world.environment = .error .usage := by
    rw [read_eq_settle]
    rcases bind_eq_error_iff.mp h with hfold | ⟨s, hfold, hdue⟩
    · exact bind_eq_error_iff.mpr (Or.inl hfold)
    · exact bind_eq_error_iff.mpr (Or.inr ⟨s, hfold, bind_eq_error_iff.mpr (Or.inl hdue)⟩)
  rw [run, hread]

/-- Expressions among the arguments have the outcome that they have as lines of the standard
input. -/
lemma run_eq_run_lines {arguments' : List String} (hne : expressions ≠ [])
    (hlines : ∀ x ∈ expressions, '\n' ∉ x.toList ∧ x.toList.getLast? ≠ some '\r')
    (h : arguments.foldlM Reading.step .start =
      .ok ⟨⟨false, none, keepGoing, expressions, none⟩, none, false⟩)
    (h' : arguments'.foldlM Reading.step .start =
      .ok ⟨⟨false, none, keepGoing, [], none⟩, none, false⟩) :
    let text := ['\n'].intercalate (expressions.map String.toList)
    run world arguments =
      run { world with standardInput := .bytes (encodeText text) } arguments' := by
  intro text
  have hevaluate : ∀ keepGoing, evaluateLines keepGoing (expressions.map (.ok ·.toList)) =
      evaluateLines keepGoing (Input.bytes (encodeText text)).lines := by
    intro keepGoing
    have hlist : ∀ line ∈ expressions.map String.toList,
        '\n' ∉ line ∧ line.getLast? ≠ some '\r' := by
      simpa using hlines
    rw [evaluateLines_intercalate keepGoing (by simpa using hne) hlist, List.map_map]
    rfl
  rw [run, run, read_of_foldlM _ h, read_of_foldlM _ h', Reading.settle, Reading.settle]
  dsimp only
  rcases environmentSwitch false (world.environment "MATCALC_DEBUG") with stop | debug
  · cases stop <;> rfl
  rcases environmentLevel none (world.environment "MATCALC_LOG_LEVEL") with stop | logLevel
  · cases stop <;> rfl
  rcases environmentSwitch keepGoing (world.environment "MATCALC_KEEP_GOING") with stop | keepGoing
  · cases stop <;> rfl
  change runOptions world _ = runOptions _ _
  rw [runOptions, if_pos hne, runOptions, if_neg (not_not.mpr rfl), hevaluate]

/-- **Expressions as arguments and as lines.**  Let expressions be given, at least one, without line
feeds in them or carriage returns at their ends, and with or without the option to keep going among
them.  If none of them is hyphened, the run has the outcome of the run that finds them as the lines
of its standard input.  If one of them is, the arguments are refused. -/
theorem run_expressionArguments (world : World) (before after : List String)
    (hne : before ++ after ≠ [])
    (hlines : ∀ x ∈ before ++ after, '\n' ∉ x.toList ∧ x.toList.getLast? ≠ some '\r')
    (keepGoing : Bool) :
    let arguments :=
      expressionArguments before ++ keepGoingArguments keepGoing ++ expressionArguments after
    let text := ['\n'].intercalate ((before ++ after).map String.toList)
    ((∀ x ∈ before ++ after, ¬ Hyphened x) → run world arguments =
      run { world with standardInput := .bytes (encodeText text) } (keepGoingArguments keepGoing)) ∧
    ((∃ x ∈ before ++ after, Hyphened x) → run world arguments = ⟨2, [], []⟩) := by
  intro arguments text
  constructor
  · intro h
    obtain ⟨hbefore, hafter⟩ := List.forall_mem_append.mp h
    refine run_eq_run_lines hne hlines ?_ (Reading.foldlM_keepGoingArguments keepGoing rfl)
    rw [List.foldlM_append, Reading.foldlM_arguments keepGoing hbefore]
    exact Reading.foldlM_expressionArguments _ hafter
  · intro h
    exact run_of_refuses (Reading.refuses_arguments keepGoing h)

/-- A dash alone, a blank line, and a product whose scalar does not come first are read as lines
are; the same product with the scalar first is refused. -/
theorem run_expressionArguments_of_signs :
    let world : World := ⟨fun _ => none, .bytes [], fun _ => .ok (.bytes [])⟩
    run world ["-e", "-", "--keep-going", "-e", " ", "-e", "[1]*-2"] =
        run { world with standardInput := .bytes (encodeText "-\n \n[1]*-2".toList) }
          ["--keep-going"] ∧
      run world ["-e", "[1]", "-e", "-2*[1]"] = ⟨2, [], []⟩ := by
  intro world
  constructor
  · exact (run_expressionArguments world ["-"] [" ", "[1]*-2"]
      (by decide) (by decide) true).1 (by decide)
  · exact (run_expressionArguments world ["[1]", "-2*[1]"] []
      (by decide) (by decide) false).2 ⟨"-2*[1]", by decide, by decide⟩

/-- The scalar of `-2*[1]` comes first, so that the expression is hyphened: on a line it has a
value, as an argument it is refused. -/
theorem run_expressionArguments_ne :
    let x := "-2*[1]"
    let world : World := ⟨fun _ => none, .bytes (encodeText x.toList), fun _ => .ok (.bytes [])⟩
    ('\n' ∉ x.toList ∧ x.toList.getLast? ≠ some '\r') ∧
      run world [] = ⟨0, "-2.00000\n\n".toList, []⟩ ∧
      run world (expressionArguments [x]) = ⟨2, [], []⟩ ∧
      run world (expressionArguments [x]) ≠ run world [] := by
  decide +kernel

end MatrixReckoner.CommandLine
