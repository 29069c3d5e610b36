import CommandLine.Text.Pieces
import CommandLine.Text.Wrap.Arrangement

/-!
# Wrapped text

A text is wrapped to a number of columns, each of its lines on its own.  A line that is short even
in bytes stays as it is; any other is cut into pieces, and these are arranged so that the right edge
is as even as can be.  The spaces at the end of a line are dropped.
-/

namespace CommandLine.Text

/-- A line without the spaces at its end. -/
def lineText (line : List Piece) : List Char :=
  line.dropLast.flatMap Piece.source ++ line.getLast?.toList.flatMap Piece.text

/-- Wraps a text without line feeds. -/
def wrapLine (limit : Nat) (line : List Char) : List (List Char) :=
  if (String.ofList line).utf8ByteSize < limit then [dropEndWhile (· = ' ') line]
  else
    (arrange limit (pieces limit line)).map lineText

def wrap (limit : Nat) (text : List Char) : List (List Char) :=
  (piecesAt '\n' text).flatMap (wrapLine limit)

/-- A way to break texts into lines of a width. -/
abbrev Wrapper := Nat → String → List String

def wrapped : Wrapper := fun limit text => (wrap limit text.toList).map String.ofList

end CommandLine.Text
