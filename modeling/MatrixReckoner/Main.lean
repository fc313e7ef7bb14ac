import MatrixReckoner.CommandLine.Run

/-!
The program: it collects what `CommandLine.run` needs from outside and gives out its outcome.
-/

namespace MatrixReckoner.CommandLine

/-- A failure of the system as the run reports it. -/
def systemError : IO.Error → SystemError
  | .noFileOrDirectory _ code _ => ⟨"No such file or directory", code.toNat⟩
  | .permissionDenied _ code _ => ⟨"Permission denied", code.toNat⟩
  | .inappropriateType _ code details => ⟨details, code.toNat⟩
  | .invalidArgument _ code details => ⟨details, code.toNat⟩
  | e => ⟨toString e, 0⟩

/-- All bytes of an opened input. -/
def readInput (read : IO ByteArray) : IO Input := do
  try
    return .bytes (← read).toList
  catch e =>
    return .unreadable (systemError e)

/-- The file of a name. -/
def openInput (name : String) : IO (Except SystemError Input) := do
  try
    let handle ← IO.FS.Handle.mk name .read
    return .ok (← readInput handle.readBinToEnd)
  catch e =>
    return .error (systemError e)

end MatrixReckoner.CommandLine

open MatrixReckoner.CommandLine

/-- Runs the program. -/
def main (arguments : List String) : IO UInt32 := do
  let debug ← IO.getEnv "MATCALC_DEBUG"
  let logLevel ← IO.getEnv "MATCALC_LOG_LEVEL"
  let keepGoing ← IO.getEnv "MATCALC_KEEP_GOING"
  let environment : String → Option String
    | "MATCALC_DEBUG" => debug
    | "MATCALC_LOG_LEVEL" => logLevel
    | "MATCALC_KEEP_GOING" => keepGoing
    | _ => none
  let options := (Options.read arguments environment).toOption
  let file := options.bind (·.file)
  let opened ← match file with
    | some name => openInput name
    | none => pure (.ok (.bytes []))
  let readsStandardInput := options.any fun o => o.file.isNone && o.expressions.isEmpty
  let standardInput ←
    if readsStandardInput then
      readInput (← IO.getStdin).readBinToEnd
    else
      pure (.bytes [])
  let outcome := run ⟨environment, standardInput, fun _ => opened⟩ arguments
  IO.print (String.ofList outcome.output)
  for message in outcome.errors do
    IO.eprintln (errorLine message)
  return outcome.code.toUInt32
