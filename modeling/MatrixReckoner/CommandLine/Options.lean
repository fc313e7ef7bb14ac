/-!
The options of the command line.  Arguments are read from left to right; what the environment sets
counts only where the arguments leave an option open, and it is looked at after them.

* `Argument`, `Argument.ofText`: the four forms of an argument;
* `Options`: what the arguments ask for;
* `Reading`, `Reading.step`: the state between two arguments;
* `Options.read`: the options, or why there is nothing to run.
-/

namespace MatrixReckoner.CommandLine

/-! ### Arguments -/

/-- The form of an argument. -/
inductive Argument where
  /-- Two dashes alone, behind which nothing is an option. -/
  | escape
  /-- Two dashes and a name, with the text behind an equals sign if there is one. -/
  | long (name : List Char) (value : Option (List Char))
  /-- A dash and one or more letters. -/
  | short (letters : List Char)
  /-- Anything else, a single dash included. -/
  | word (text : List Char)
  deriving DecidableEq, Repr

/-- The form of a text. -/
def Argument.ofText : List Char → Argument
  | ['-'] => word ['-']
  | '-' :: '-' :: [] => escape
  | '-' :: '-' :: text =>
    let name := text.takeWhile (· != '=')
    match text.dropWhile (· != '=') with
    | [] => long name none
    | _ :: value => long name (some value)
  | '-' :: letters => short letters
  | text => word text

/-! ### Options -/

/-- How much is logged. -/
inductive LogLevel where
  | error
  | warn
  | info
  | debug
  | trace
  deriving DecidableEq, Repr

/-- The level of a name. -/
def LogLevel.ofName? : String → Option LogLevel
  | "error" => some error
  | "warn" => some warn
  | "info" => some info
  | "debug" => some debug
  | "trace" => some trace
  | _ => none

/-- What a run is asked for. -/
structure Options where
  /-- Whether debugging messages are logged. -/
  debug : Bool
  /-- How much is logged, if this is set. -/
  logLevel : Option LogLevel
  /-- Whether a line that fails is followed by the next. -/
  keepGoing : Bool
  /-- The expressions among the arguments, in order. -/
  expressions : List String
  /-- The file of expressions. -/
  file : Option String
  deriving DecidableEq, Repr

/-- Why there is nothing to run. -/
inductive Stop where
  /-- The version is asked for. -/
  | version
  /-- A description is asked for, the long one or the short one. -/
  | help (long : Bool)
  /-- The arguments or the environment do not make sense. -/
  | usage
  deriving DecidableEq, Repr

/-- An option with a value. -/
inductive Setting where
  | expression
  | logLevel
  deriving DecidableEq, Repr

/-- An option without one. -/
inductive Switch where
  | debug
  | keepGoing
  | version
  | help (long : Bool)
  deriving DecidableEq, Repr

/-- What a name behind two dashes stands for. -/
def longOption? (name : String) : Option (Switch ⊕ Setting) :=
  match name with
  | "debug" => some (.inl .debug)
  | "keep-going" => some (.inl .keepGoing)
  | "version" => some (.inl .version)
  | "help" => some (.inl (.help true))
  | "expr" => some (.inr .expression)
  | "log-level" => some (.inr .logLevel)
  | _ => none

/-- What a letter behind a dash stands for. -/
def shortOption? (letter : Char) : Option (Switch ⊕ Setting) :=
  match letter with
  | 'd' => some (.inl .debug)
  | 'V' => some (.inl .version)
  | 'h' => some (.inl (.help false))
  | 'e' => some (.inr .expression)
  | _ => none

/-! ### Reading arguments -/

/-- The state between two arguments. -/
structure Reading where
  options : Options
  /-- The option whose value is due. -/
  due : Option Setting
  /-- Whether two dashes alone were read. -/
  escaped : Bool

namespace Reading

/-- The state before the first argument. -/
def start : Reading :=
  ⟨⟨false, none, false, [], none⟩, none, false⟩

/-- Refuses to go on while a value is due. -/
def nothingDue (s : Reading) : Except Stop Unit :=
  if s.due.isSome then .error .usage else .ok ()

/-- An option without a value.  None may be repeated. -/
def switch (s : Reading) (option : Switch) : Except Stop Reading := do
  s.nothingDue
  match option with
  | .version => throw .version
  | .help long => throw (.help long)
  | .debug =>
    if s.options.debug then throw .usage else return { s with options.debug := true }
  | .keepGoing =>
    if s.options.keepGoing then throw .usage else return { s with options.keepGoing := true }

/-- The value of an option.  Expressions may be repeated. -/
def assign (s : Reading) (option : Setting) (value : String) : Except Stop Reading :=
  match option with
  | .expression => .ok { s with
      options.expressions := s.options.expressions ++ [value], due := none }
  | .logLevel =>
    match s.options.logLevel, LogLevel.ofName? value with
    | none, some level => .ok { s with options.logLevel := some level, due := none }
    | _, _ => .error .usage

/-- An option with a value, which is due if it is not attached. -/
def setting (s : Reading) (option : Setting) (value : Option (List Char)) :
    Except Stop Reading := do
  s.nothingDue
  match value with
  | some value => s.assign option (.ofList value)
  | none => return { s with due := some option }

/-- An option by name. -/
def long (s : Reading) (name : List Char) (value : Option (List Char)) : Except Stop Reading :=
  match longOption? (.ofList name), value with
  | some (.inl option), none => s.switch option
  | some (.inr option), value => s.setting option value
  | _, _ => .error .usage

/-- Options by letter.  What stands behind the letter of an option with a value is the value, less
one equals sign. -/
def short (s : Reading) : List Char → Except Stop Reading
  | [] => .ok s
  | letter :: letters =>
    match shortOption? letter with
    | some (.inl option) => do (← s.switch option).short letters
    | some (.inr option) =>
      match letters with
      | [] => s.setting option none
      | '=' :: value => s.setting option (some value)
      | value => s.setting option (some value)
    | none => .error .usage

/-- The file, which is named once and not by the empty text. -/
def file (s : Reading) (name : String) : Except Stop Reading := do
  s.nothingDue
  if s.options.file.isSome || name = "" then
    throw .usage
  else
    return { s with options.file := some name }

/-- One argument. -/
def step (s : Reading) (text : String) : Except Stop Reading :=
  if s.escaped then
    s.file text
  else
    match Argument.ofText text.toList with
    | .escape => .ok { s with escaped := true }
    | .long name value => s.long name value
    | .short letters => s.short letters
    | .word _ =>
      match s.due with
      | some option => s.assign option text
      | none => s.file text

end Reading

/-! ### The environment -/

/-- The value of a switch in the environment. -/
def switchValue? : String → Option Bool
  | "true" => some true
  | "false" => some false
  | _ => none

/-- A switch that the arguments leave open, as the environment sets it. -/
def environmentSwitch (given : Bool) (value : Option String) : Except Stop Bool :=
  match given, value with
  | true, _ => .ok true
  | false, none => .ok false
  | false, some value =>
    match switchValue? value with
    | some b => .ok b
    | none => .error .usage

/-- The log level that the arguments leave open, as the environment sets it. -/
def environmentLevel (given : Option LogLevel) (value : Option String) :
    Except Stop (Option LogLevel) :=
  match given, value with
  | some level, _ => .ok (some level)
  | none, none => .ok none
  | none, some value =>
    match LogLevel.ofName? value with
    | some level => .ok (some level)
    | none => .error .usage

/-- The options that the arguments and the environment ask for.  A file excludes expressions among
the arguments. -/
def Options.read (arguments : List String) (environment : String → Option String) :
    Except Stop Options := do
  let s ← arguments.foldlM Reading.step .start
  s.nothingDue
  let debug ← environmentSwitch s.options.debug (environment "MATCALC_DEBUG")
  let logLevel ← environmentLevel s.options.logLevel (environment "MATCALC_LOG_LEVEL")
  let keepGoing ← environmentSwitch s.options.keepGoing (environment "MATCALC_KEEP_GOING")
  if s.options.file.isSome && !s.options.expressions.isEmpty then
    throw .usage
  else
    return { s.options with debug, logLevel, keepGoing }

end MatrixReckoner.CommandLine
