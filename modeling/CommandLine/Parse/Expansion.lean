import CommandLine.Parse.Error
import CommandLine.Token

/-!
# Expansion of response files

A reference to a response file stands for the tokens of that file, in its place.  What remains of a
command line once all references are followed is a flat list of events: tokens, each with the length
of the list that it stands in, and a failure wherever a reference leads nowhere.  A failure is only
an event, since a token before it may already be wrong.
-/

namespace CommandLine

inductive Event
  /-- A token that is no reference, from a list of `count` arguments, empty ones included. -/
  | token (count : Nat) (token : Token)
  | failure (error : ArgumentError)
  deriving DecidableEq, Repr

namespace Expansion

/-- Where response files come from, and whether they are looked for. -/
structure Source where
  files : FileSystem
  encoding : Text.Encoding := .utf8
  enabled : Bool

/-- The events of one list of arguments; `inside` gives those of a file that is referred to. -/
def eventsOf (source : Source) (inside : String → List String → List Event)
    (arguments : List String) : List Event :=
  (Token.ofArguments source.enabled arguments).flatMap fun
    | .responseFile path =>
        if !source.files.contains path then [.failure (.responseFileMissing path)]
        else
          match ResponseFile.read source.files source.encoding path with
          | .error cause => [.failure (.responseFileUnreadable path cause)]
          | .ok tokens => inside path tokens
    | token => [.token arguments.length token]

/-- The events of a list of arguments in which references are followed `depth` deep. -/
def eventsWithin (source : Source) : Nat → List String → List Event
  | 0 => eventsOf source fun path _ => [.failure (.responseFileCycle path)]
  | depth + 1 => eventsOf source fun _ tokens => eventsWithin source depth tokens

/-- How deep references are followed.  Those that do not lead back to a file that they came from are
never nested deeper than there are files.  The others are followed into their cycle a second time,
so that an argument in it that may not be repeated is met again before the depth is used up. -/
def Source.depth (source : Source) : Nat :=
  2 * source.files.size + 1

/-- The events of a command line. -/
def events (source : Source) (arguments : List String) : List Event :=
  eventsWithin source source.depth arguments

end Expansion

end CommandLine
