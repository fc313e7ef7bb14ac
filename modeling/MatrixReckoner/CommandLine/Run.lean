import MatrixReckoner.CommandLine.Input
import MatrixReckoner.CommandLine.Options
import MatrixReckoner.Expression.Reader

/-!
Runs of the command line: the expressions of the arguments, or of the lines of a file or of the
standard input, are evaluated in turn.  A value is printed with an empty line behind it, a failure
is reported and ends the run unless it is to keep going.

* `Report`, `evaluateLines`: what the lines of an input print and report;
* `World`: what a run finds outside;
* `Outcome`, `run`: the whole run;
* `versionText`, `helpText`: what is printed instead where this is asked for.
-/

namespace MatrixReckoner.CommandLine

/-- What is printed, and the failures in order. -/
structure Report where
  output : List Char
  failures : List String
  deriving DecidableEq, Repr

namespace Report

/-- Nothing printed and nothing reported. -/
def empty : Report :=
  ⟨[], []⟩

/-- A value printed before the rest. -/
def print (a : DenseMatrix Float) (rest : Report) : Report :=
  { rest with output := a.text DenseMatrix.defaultPlaces ++ ['\n', '\n'] ++ rest.output }

/-- A failure reported before the rest. -/
def fail (message : String) (rest : Report) : Report :=
  { rest with failures := message :: rest.failures }

end Report

/-- Evaluates the lines that are not blank.  A line that cannot be read ends the run in any case. -/
def evaluateLines (keepGoing : Bool) : List (Except ReadFailure (List Char)) → Report
  | [] => .empty
  | .error failure :: _ => .fail failure.message .empty
  | .ok line :: lines =>
    if line.all isBlank then
      evaluateLines keepGoing lines
    else
      match Expression.evaluate line with
      | .ok a => .print a (evaluateLines keepGoing lines)
      | .error e =>
        .fail e.message (if keepGoing then evaluateLines keepGoing lines else .empty)

/-- What a run finds outside. -/
structure World where
  /-- The environment variables. -/
  environment : String → Option String
  standardInput : Input
  /-- The file of a name. -/
  openFile : String → Except SystemError Input

/-- The visible effect of a run: the exit code, the standard output, and the error messages. -/
structure Outcome where
  code : Nat
  output : List Char
  errors : List String
  deriving DecidableEq, Repr

/-- The outcome of evaluating lines: the code tells whether there was a failure. -/
def Report.outcome (r : Report) : Outcome :=
  ⟨if r.failures = [] then 0 else 1, r.output, r.failures⟩

/-- The name and version of the program. -/
def versionText : String := "matcalc 0.1.0\n"

/-- What the program does, in short. -/
def about : String :=
  "Evaluate matrix expressions such as ([1 2;3 4] + E2)^-1 * 2"

/-- What the program does, with examples. -/
def longAbout : String :=
  "\n" ++
  "Each input line holds one expression over matrix literals ([1 2;3 4]),\n" ++
  "identities (E3 or I3), real scalars, + - *, parentheses, and postfix\n" ++
  "powers (^k, ^-1, ^T). Every line must evaluate to a matrix.\n" ++
  "\n" ++
  "Examples:\n" ++
  "  matcalc                               # read expressions from stdin\n" ++
  "  matcalc input.txt                     # read expressions from a file\n" ++
  "  matcalc -e '[1 2;3 4]^-1'             # evaluate a single expression\n" ++
  "  matcalc --keep-going input.txt        # report every failing line\n"

/-- What the environment sets. -/
def afterHelp : String :=
  "\n" ++
  "Environment Variables:\n" ++
  "  MATCALC_LOG=debug            env_logger filter (default: warn)\n" ++
  "  MATCALC_LOG_LEVEL=debug      Set log level (error, warn, info, debug, trace)\n" ++
  "  MATCALC_DEBUG=1              Enable debug logging\n" ++
  "  MATCALC_KEEP_GOING=1         Continue after a failing line\n"

/-- The description of the program.  The list of the options, which stands between its two parts and
follows from their declarations, is left out. -/
def helpText (long : Bool) : String :=
  (if long then longAbout else about) ++ afterHelp

/-- The run that the options ask for. -/
def runOptions (world : World) (options : Options) : Outcome :=
  if options.expressions ≠ [] then
    (evaluateLines options.keepGoing (options.expressions.map (.ok ·.toList))).outcome
  else
    match options.file with
    | none => (evaluateLines options.keepGoing world.standardInput.lines).outcome
    | some name =>
      match world.openFile name with
      | .ok input => (evaluateLines options.keepGoing input.lines).outcome
      | .error e => ⟨1, [], [s!"cannot open {name}: {e.message}"]⟩

/-- The run of the program with given arguments.  What is said about a wrong use is left out. -/
def run (world : World) (arguments : List String) : Outcome :=
  match Options.read arguments world.environment with
  | .ok options => runOptions world options
  | .error .version => ⟨0, versionText.toList, []⟩
  | .error (.help long) => ⟨0, (helpText long).toList, []⟩
  | .error .usage => ⟨2, [], []⟩

/-- The line that reports an error. -/
def errorLine (message : String) : String :=
  "error: " ++ message

end MatrixReckoner.CommandLine
