import CommandLine.Text.Pieces

/-!
# Paths

A path is kept as it was written.  Two paths are the same when they have the same steps: repeated
and trailing slashes do not count, nor does a `.` that is not the first step.
-/

namespace CommandLine.Path

inductive Step
  | root
  | here
  | name (text : List Char)
  deriving DecidableEq, Repr

def stepsOfPieces (pieces : List (List Char)) : List Step :=
  (pieces.filter fun piece => piece ≠ [] && piece ≠ ['.']).map .name

def steps (path : String) : List Step :=
  match Text.piecesAt '/' path.toList with
  | [] :: rest => if path.isEmpty then [] else .root :: stepsOfPieces rest
  | ['.'] :: rest => .here :: stepsOfPieces rest
  | pieces => stepsOfPieces pieces

/-- Whether two paths have the same steps. -/
def same (a b : String) : Bool :=
  steps a == steps b

end CommandLine.Path
