import CommandLine.FileSystem
import CommandLine.Text.Blank
import CommandLine.Text.Encoding
import CommandLine.Text.Lines
import CommandLine.Token.Split

/-!
# Response files

A response file is a text full of arguments.  Each line is trimmed of blanks; a line that begins
with `#` is a comment, and every other one is split at spaces and tabs, with double quotes
protecting them.
-/

namespace CommandLine.ResponseFile

def delimiters : List Char :=
  [' ', '\t']

def isComment (line : List Char) : Bool :=
  line.head? = some '#'

/-- The tokens of one line. -/
def lineTokens (line : List Char) : List (List Char) :=
  let line := Text.trim line
  if isComment line then [] else Token.splitChars delimiters line

def tokensOfChars (text : List Char) : List (List Char) :=
  (Text.lines text).flatMap lineTokens

/-- The tokens of a text, in order. -/
def tokens (text : String) : List String :=
  (tokensOfChars text.toList).map String.ofList

inductive ReadError
  | access (error : AccessError)
  | decoding (error : Text.DecodingError)
  deriving DecidableEq, Repr

def ReadError.message : ReadError → String
  | .access error => error.message
  | .decoding error => error.message

/-- The tokens of the file at a path. -/
def read (fs : FileSystem) (encoding : Text.Encoding) (path : String) :
    Except ReadError (List String) :=
  match fs.read path with
  | .error error => .error (.access error)
  | .ok bytes =>
      match encoding.decode bytes with
      | .error error => .error (.decoding error)
      | .ok text => .ok ((tokensOfChars text).map String.ofList)

end CommandLine.ResponseFile
