import CommandLine.ResponseFile
import CommandLine.Slot

/-!
# Why a command line is refused

The causes for which parsing stops, their wording, and the argument that each is about.
-/

namespace CommandLine

inductive ArgumentError
  /-- No named argument answers to the option, or nothing takes positional values. -/
  | unknown (written : String)
  /-- An argument for a single occurrence was given again. -/
  | duplicate (name : String)
  | duplicateValue (name value : String)
  | invalidValue (name written : String) (cause : ValueError)
  | missing (name : String)
  | exclusive (name : String)
  | responseFileMissing (path : String)
  | responseFileUnreadable (path : String) (cause : ResponseFile.ReadError)
  /-- References lead deeper than there are files, so some file refers back to itself. -/
  | responseFileCycle (path : String)
  | obsolete (name message : String)
  | refused (name : String) (cause : Refusal)
  deriving DecidableEq, Repr

/-- What is said about the use of an argument that should no longer be used. -/
def obsolescenceNotice (name message : String) : String :=
  s!"Command-line argument '-{name}' is obsolete. {message}"

namespace ArgumentError

def message : ArgumentError → String
  | .unknown written => s!"Unknown argument '{written}'"
  | .duplicate name => s!"Duplicate argument '-{name}'"
  | .duplicateValue name value =>
      s!"Duplicate value '{value}' for command-line argument '-{name}'."
  | .invalidValue name written cause =>
      s!"Invalid value '{written}' for command-line argument '-{name}'." ++ cause.hint
  | .missing name => s!"Missing required argument '-{name}'."
  | .exclusive name => s!"Command-line argument '-{name}' cannot be combined with other arguments."
  | .responseFileMissing path => s!"Response file '{path}' does not exist."
  | .responseFileUnreadable path _ => s!"Unable to read response file '{path}'."
  | .responseFileCycle path => s!"Response file '{path}' refers back to itself."
  | .obsolete name message => obsolescenceNotice name message
  | .refused name _ =>
      s!"Command-line argument '-{name}' could not be bound into its collection."

/-- The long name of the argument that the error is about. -/
def argumentName : ArgumentError → Option String
  | .duplicate name | .duplicateValue name _ | .invalidValue name _ _ | .missing name
  | .exclusive name | .obsolete name _ | .refused name _ => some name
  | .unknown _ | .responseFileMissing _ | .responseFileUnreadable _ _ | .responseFileCycle _ => none

/-- The wording of the cause behind the error, if there is one. -/
def causeMessage : ArgumentError → Option String
  | .invalidValue _ _ cause => some cause.message
  | .responseFileUnreadable _ cause => some cause.message
  | .refused _ cause => some cause.message
  | _ => none

end ArgumentError

end CommandLine
