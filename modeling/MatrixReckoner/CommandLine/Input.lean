/-!
The lines of an input.  An input is a sequence of bytes; a line ends at a line feed, a carriage
return before that belongs to the end of the line, and every line has to be text in UTF-8.

* `SystemError`: a failure of the system;
* `Input`: what an opened input holds;
* `byteLines`: the lines as bytes;
* `Input.lines`: the lines as text, each with the possibility that it cannot be read.
-/

namespace MatrixReckoner.CommandLine

/-- A failure that the system reports. -/
structure SystemError where
  description : String
  code : Nat
  deriving DecidableEq, Repr

/-- The text that reports the failure. -/
def SystemError.message (e : SystemError) : String :=
  s!"{e.description} (os error {e.code})"

/-- What an opened input holds. -/
inductive Input where
  | bytes (contents : List UInt8)
  /-- An input that can be opened but not read. -/
  | unreadable (cause : SystemError)

/-- Why a line cannot be read. -/
inductive ReadFailure where
  | notText
  | system (cause : SystemError)
  deriving DecidableEq, Repr

/-- The text that reports the failure. -/
def ReadFailure.message : ReadFailure → String
  | notText => "failed to read input: stream did not contain valid UTF-8"
  | system cause => s!"failed to read input: {cause.message}"

/-- The byte that ends a line. -/
def lineFeed : UInt8 := 10

/-- The byte that may stand before the end of a line. -/
def carriageReturn : UInt8 := 13

/-- A line without the carriage return at its end. -/
def stripReturn (line : List UInt8) : List UInt8 :=
  if line.getLast? = some carriageReturn then line.dropLast else line

/-- The lines without their ends.  Behind the last line feed there is a line only if there are
bytes. -/
def byteLines (bytes : List UInt8) : List (List UInt8) :=
  let line := bytes.takeWhile (· != lineFeed)
  match _stop : bytes.dropWhile (· != lineFeed) with
  | [] => if line = [] then [] else [line]
  | _ :: rest => stripReturn line :: byteLines rest
termination_by bytes.length
decreasing_by
  have := (List.dropWhile_sublist (l := bytes) (· != lineFeed)).length_le
  rw [_stop] at this
  exact this

/-- The text of bytes in UTF-8. -/
def decodeText? (bytes : List UInt8) : Option (List Char) :=
  (ByteArray.mk bytes.toArray).utf8Decode?.map Array.toList

/-- The lines of an input. -/
def Input.lines : Input → List (Except ReadFailure (List Char))
  | bytes contents => (byteLines contents).map fun line =>
    match decodeText? line with
    | some text => .ok text
    | none => .error .notText
  | unreadable cause => [.error (.system cause)]

end MatrixReckoner.CommandLine
