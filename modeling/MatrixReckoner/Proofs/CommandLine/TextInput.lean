import MatrixReckoner.CommandLine.Run
import MatrixReckoner.Proofs.Expression.Lines

/-!
A run of the command line over a text answers as a reader of that text does.

* `encodeText`: the bytes of a text.
* `lines_encodeText`: the lines of these bytes are those of the text, but for an empty last one.
* `Report.ofAnswers`, `heeded`: what answers print and report, and the answers that a run heeds.
* `evaluateLines_map_ok`: lines of text print and report what their answers do.
* `GivesInput`: the ways in which a run is given its input.
* `run_heeds_results`: the whole run, by the answers of the reader.
-/

namespace MatrixReckoner.CommandLine

open Expression

/-! ### Texts as bytes -/

/-- The bytes of a text in UTF-8. -/
def encodeText (text : List Char) : List UInt8 :=
  text.flatMap String.utf8EncodeChar

variable {text line rest : List Char}

lemma encodeText_append (text rest : List Char) :
    encodeText (text ++ rest) = encodeText text ++ encodeText rest :=
  List.flatMap_append

/-- The bytes below 128 are the characters below 128. -/
lemma utf8EncodeChar_eq_of_mem {c : Char} {b : UInt8} (hmem : b ∈ String.utf8EncodeChar c)
    (hb : b.toNat < 128) : String.utf8EncodeChar c = [b] ∧ c.toNat = b.toNat := by
  have hval : c.val.toNat = c.toNat := rfl
  by_cases hc : c.toNat ≤ 127
  · rw [String.utf8EncodeChar, hval, if_pos hc] at hmem ⊢
    obtain rfl := List.mem_singleton.mp hmem
    refine ⟨rfl, ?_⟩
    rw [UInt8.toNat_ofNat']
    omega
  · rw [String.utf8EncodeChar, hval, if_neg hc] at hmem
    refine absurd hb (Nat.not_lt.mpr ?_)
    split at hmem
    · simp only [List.mem_cons, List.not_mem_nil, or_false] at hmem
      rcases hmem with rfl | rfl <;> rw [UInt8.toNat_ofNat'] <;> omega
    · split at hmem <;> simp only [List.mem_cons, List.not_mem_nil, or_false] at hmem
      · rcases hmem with rfl | rfl | rfl <;> rw [UInt8.toNat_ofNat'] <;> omega
      · rcases hmem with rfl | rfl | rfl | rfl <;> rw [UInt8.toNat_ofNat'] <;> omega

lemma lineFeed_notMem_encodeText (hline : '\n' ∉ line) : ∀ b ∈ encodeText line, b != lineFeed := by
  intro b hb
  obtain ⟨c, hc, hbc⟩ := List.mem_flatMap.mp hb
  refine bne_iff_ne.mpr ?_
  rintro rfl
  obtain rfl : c = '\n' := Char.toNat_inj.mp (utf8EncodeChar_eq_of_mem hbc (by decide)).2
  exact hline hc

/-- A text that does not end in a carriage return has bytes that do not. -/
lemma stripReturn_encodeText (hline : line.getLast? ≠ some '\r') :
    stripReturn (encodeText line) = encodeText line := by
  refine if_neg fun hlast => hline ?_
  rcases List.eq_nil_or_concat line with rfl | ⟨line, c, rfl⟩
  · cases hlast
  · rw [List.concat_eq_append, encodeText_append, List.getLast?_append] at hlast
    have hne : (encodeText [c]).getLast? ≠ none := by
      rw [Ne, List.getLast?_eq_none_iff]
      simp [encodeText]
    obtain ⟨b, hb⟩ := Option.ne_none_iff_exists'.mp hne
    rw [hb, Option.some_or] at hlast
    cases hlast
    have hmem : carriageReturn ∈ String.utf8EncodeChar c := by
      simpa [encodeText] using List.mem_of_getLast? hb
    obtain rfl : c = '\r' := Char.toNat_inj.mp (utf8EncodeChar_eq_of_mem hmem (by decide)).2
    simp

lemma decodeText?_encodeText (text : List Char) : decodeText? (encodeText text) = some text := by
  have h : ByteArray.mk (encodeText text).toArray = text.utf8Encode :=
    ByteArray.ext (List.data_toByteArray).symm
  rw [decodeText?, h, List.utf8Decode?_utf8Encode]
  rfl

/-! ### Lines -/

/-- Carriage returns stand nowhere before a line feed. -/
def NoReturns (text : List Char) : Prop :=
  ¬ ['\r', '\n'] <:+: text

lemma NoReturns.tail (h : NoReturns (line ++ '\n' :: rest)) : NoReturns rest := fun hrest =>
  h (hrest.trans ((List.suffix_cons '\n' rest).isInfix.trans (List.suffix_append line _).isInfix))

lemma NoReturns.getLast?_ne (h : NoReturns (line ++ '\n' :: rest)) :
    line.getLast? ≠ some '\r' := by
  intro hlast
  obtain ⟨line, rfl⟩ := List.getLast?_eq_some_iff.mp hlast
  exact h ⟨line, rest, by simp⟩

lemma byteLines_eq (bytes : List UInt8) :
    byteLines bytes =
      match bytes.dropWhile (· != lineFeed) with
      | [] => if bytes.takeWhile (· != lineFeed) = [] then []
        else [bytes.takeWhile (· != lineFeed)]
      | _ :: rest => stripReturn (bytes.takeWhile (· != lineFeed)) :: byteLines rest := by
  rw [byteLines]
  split
  · next h => rw [h]
  · next h => rw [h]

lemma byteLines_last (hline : '\n' ∉ line) :
    byteLines (encodeText line) = if line = [] then [] else [encodeText line] := by
  have hbytes := lineFeed_notMem_encodeText hline
  rw [byteLines_eq, List.dropWhile_eq_nil_iff.mpr hbytes, List.takeWhile_eq_self_iff.mpr hbytes]
  cases line <;> simp [encodeText]

lemma byteLines_cons (hline : '\n' ∉ line) (h : NoReturns (line ++ '\n' :: rest)) :
    byteLines (encodeText (line ++ '\n' :: rest)) =
      encodeText line :: byteLines (encodeText rest) := by
  have hbytes := lineFeed_notMem_encodeText hline
  have hsplit : encodeText (line ++ '\n' :: rest) =
      encodeText line ++ lineFeed :: encodeText rest := encodeText_append line ('\n' :: rest)
  rw [byteLines_eq, hsplit, List.dropWhile_append_of_pos hbytes,
    List.takeWhile_append_of_pos hbytes]
  simp [stripReturn_encodeText h.getLast?_ne]

/-- The lines of an input are those of its text, but for the empty one behind a last line feed. -/
lemma lines_encodeText (text : List Char) (h : NoReturns text) :
    ∃ lines, (Input.bytes (encodeText text)).lines = lines.map .ok ∧
      (text.splitOn '\n' = lines ∨ text.splitOn '\n' = lines ++ [[]]) := by
  induction text using Reader.lineInduction with
  | last line hline =>
      rw [Input.lines, byteLines_last hline, List.splitOn_eq_singleton hline]
      by_cases hnil : line = []
      · subst hnil
        exact ⟨[], rfl, Or.inr rfl⟩
      · rw [if_neg hnil]
        refine ⟨[line], ?_, Or.inl rfl⟩
        simp only [List.map_cons, List.map_nil, decodeText?_encodeText]
  | cons line rest hline ih =>
      obtain ⟨lines, hlines, hsplit⟩ := ih h.tail
      refine ⟨line :: lines, ?_, ?_⟩
      · rw [Input.lines, byteLines_cons hline h, List.map_cons, decodeText?_encodeText]
        exact congrArg _ hlines
      · rw [List.splitOn_append_cons_self_of_not_mem hline]
        exact hsplit.imp (congrArg _) (congrArg _)

/-! ### Answers -/

/-- What answers print and report. -/
def Report.ofAnswers : List Evaluation → Report
  | [] => .empty
  | .ok a :: answers => .print a (ofAnswers answers)
  | .error e :: answers => .fail e.message (ofAnswers answers)

/-- The values among answers. -/
def values (answers : List Evaluation) : List (DenseMatrix Float) :=
  answers.filterMap fun
    | .ok a => some a
    | .error _ => none

/-- The errors among answers. -/
def failures (answers : List Evaluation) : List ExpressionError :=
  answers.filterMap fun
    | .ok _ => none
    | .error e => some e

/-- The answers that a run heeds: all of them if it is to keep going, and otherwise those up to and
including the first error. -/
def heeded (keepGoing : Bool) (answers : List Evaluation) : List Evaluation :=
  if keepGoing then answers else answers.take (answers.findIdx (!·.isOk) + 1)

lemma heeded_ok (keepGoing : Bool) (a : DenseMatrix Float) (answers : List Evaluation) :
    heeded keepGoing (.ok a :: answers) = .ok a :: heeded keepGoing answers := by
  cases keepGoing
  · simp [heeded, List.findIdx_cons, Except.isOk, Except.toBool]
  · rfl

lemma heeded_error (keepGoing : Bool) (e : ExpressionError) (answers : List Evaluation) :
    heeded keepGoing (.error e :: answers) =
      .error e :: if keepGoing then heeded keepGoing answers else [] := by
  cases keepGoing
  · simp [heeded, List.findIdx_cons, Except.isOk, Except.toBool]
  · rfl

/-- Lines of text print and report what the answers do that they give. -/
lemma evaluateLines_map_ok (keepGoing : Bool) (lines : List (List Char)) :
    evaluateLines keepGoing (lines.map .ok) = .ofAnswers
      (heeded keepGoing ((lines.filter (!·.all isBlank)).map Expression.evaluate)) := by
  induction lines with
  | nil => cases keepGoing <;> rfl
  | cons line lines ih =>
      rw [List.map_cons, evaluateLines]
      cases hblank : line.all isBlank with
      | true => rw [List.filter_cons_of_neg (by simp [hblank]), if_pos rfl, ih]
      | false =>
          rw [List.filter_cons_of_pos (by simp [hblank]), if_neg Bool.false_ne_true, List.map_cons]
          cases Expression.evaluate line with
          | ok a => rw [heeded_ok, Report.ofAnswers, ih]
          | error e =>
              rw [heeded_error, Report.ofAnswers, ih]
              cases keepGoing <;> rfl

namespace Report

lemma output_ofAnswers (answers : List Evaluation) :
    (ofAnswers answers).output =
      (values answers).flatMap fun a => a.text DenseMatrix.defaultPlaces ++ ['\n', '\n'] := by
  induction answers with
  | nil => rfl
  | cons answer answers ih =>
      cases answer with
      | ok a => simp [ofAnswers, print, ih, values]
      | error e => simpa [ofAnswers, fail, values] using ih

lemma failures_ofAnswers (answers : List Evaluation) :
    (ofAnswers answers).failures = (CommandLine.failures answers).map ExpressionError.message := by
  induction answers with
  | nil => rfl
  | cons answer answers ih =>
      cases answer with
      | ok a => simpa [ofAnswers, print, CommandLine.failures] using ih
      | error e => simp [ofAnswers, fail, ih, CommandLine.failures]

end Report

/-- The lines of a text print and report what the answers of its reader do. -/
lemma evaluateLines_encodeText (keepGoing : Bool) (h : NoReturns text) :
    evaluateLines keepGoing (Input.bytes (encodeText text)).lines =
      .ofAnswers (heeded keepGoing (Reader.ofText text).results) := by
  have hresults : (Reader.ofText text).results =
      ((text.splitOn '\n').filter (!·.all isBlank)).map Expression.evaluate :=
    Reader.Remaining.results (Reader.remaining_splitOn text)
  obtain ⟨lines, hlines, hsplit⟩ := lines_encodeText text h
  rw [hlines, evaluateLines_map_ok, hresults]
  rcases hsplit with hsplit | hsplit <;> rw [hsplit]
  simp

/-! ### Runs -/

/-- A run is given an input: it has no expressions among its arguments, and the standard input, or
the file that the arguments name, is that input. -/
inductive GivesInput (world : World) (options : Options) (input : Input) : Prop where
  | standardInput (hexpressions : options.expressions = []) (hfile : options.file = none)
    (hinput : world.standardInput = input)
  | file {name : String} (hexpressions : options.expressions = [])
    (hfile : options.file = some name) (hinput : world.openFile name = .ok input)

variable {world : World} {options : Options} {arguments : List String}

lemma GivesInput.runOptions {input : Input} (h : GivesInput world options input) :
    runOptions world options = (evaluateLines options.keepGoing input.lines).outcome := by
  cases h with
  | standardInput hexpressions hfile hinput =>
      rw [CommandLine.runOptions, if_neg (not_not.mpr hexpressions), hfile, hinput]
  | file hexpressions hfile hinput =>
      rw [CommandLine.runOptions, if_neg (not_not.mpr hexpressions), hfile]
      dsimp only
      rw [hinput]

/-- **A run answers as a reader.**  Let a run be given a text without carriage returns before line
feeds, on the standard input or in a file.  Of the answers of a reader of the text it heeds all if
it is to keep going, and those up to the first error otherwise: it prints the values among them,
each with an empty line behind it, it reports the errors, and its code is zero just in case there
are none. -/
theorem run_heeds_results (hreturns : NoReturns text)
    (hoptions : Options.read arguments world.environment = .ok options)
    (hinput : GivesInput world options (.bytes (encodeText text))) :
    let answers := heeded options.keepGoing (Reader.ofText text).results
    (run world arguments).output =
        ((values answers).flatMap fun a => a.text DenseMatrix.defaultPlaces ++ ['\n', '\n']) ∧
      (run world arguments).errors.map errorLine =
        (failures answers).map ("error: " ++ ·.message) ∧
      (run world arguments).code = if failures answers = [] then 0 else 1 := by
  intro answers
  have hrun : run world arguments = (Report.ofAnswers answers).outcome := by
    rw [run, hoptions]
    dsimp only
    rw [hinput.runOptions, evaluateLines_encodeText options.keepGoing hreturns]
  rw [hrun]
  refine ⟨Report.output_ofAnswers answers, ?_, ?_⟩
  · simp only [Report.outcome, Report.failures_ofAnswers, List.map_map]
    rfl
  · simp [Report.outcome, Report.failures_ofAnswers]

/-- A file with a line that is blank, one with a value, one without, and one that is blank. -/
theorem run_heeds_results_of_file :
    let text := ['\u00a0', '\n', '[', '1', ']', '\n', '\t', '1', '+', '\n', '\r']
    let world : World := ⟨fun _ => none, .bytes [], fun _ => .ok (.bytes (encodeText text))⟩
    let arguments := ["--keep-going", "sums"]
    let options : Options := ⟨false, none, true, [], some "sums"⟩
    (NoReturns text ∧ Options.read arguments world.environment = .ok options ∧
      GivesInput world options (.bytes (encodeText text))) ∧
    (run world arguments).output = "1.00000\n\n".toList ∧
    (run world arguments).errors.map errorLine =
      ["error: " ++ (ExpressionError.missingOperand 3).message] ∧
    (run world arguments).code = 1 := by
  intro text world arguments options
  have hreturns : NoReturns text := by unfold NoReturns; decide
  have hoptions : Options.read arguments world.environment = .ok options := by cbv
  have hinput : GivesInput world options (.bytes (encodeText text)) := .file rfl rfl rfl
  have hvalues : ((values (heeded true (Reader.ofText text).results)).flatMap fun a =>
      a.text DenseMatrix.defaultPlaces ++ ['\n', '\n']) = "1.00000\n\n".toList := by
    decide +kernel
  have hfailures : failures (heeded true (Reader.ofText text).results) = [.missingOperand 3] := by
    decide +kernel
  obtain ⟨houtput, herrors, hcode⟩ := run_heeds_results hreturns hoptions hinput
  refine ⟨⟨hreturns, hoptions, hinput⟩, houtput.trans hvalues, ?_, ?_⟩
  · rw [herrors, hfailures, List.map_singleton]
  · rw [hcode, hfailures, if_neg (List.cons_ne_nil _ _)]

end MatrixReckoner.CommandLine
