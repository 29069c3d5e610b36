import CommandLine.Text.Blank

/-!
# Source text

The text of a type as it stands in a definition.  Blanks and comments only separate its parts, so
two texts that differ in nothing else are the same type.
-/

namespace CommandLine.Schema.Source

/-- What the next character of a source text belongs to. -/
inductive Reading
  | code
  | lineComment
  /-- A comment from `/*` to `*/`, inside of `outer` others. -/
  | comment (outer : Nat)
  deriving DecidableEq, Repr

/-- The marks that set the direction of writing are as good as blanks. -/
def separates (c : Char) : Bool :=
  Text.isBlank c || c = '\u200E' || c = '\u200F'

def compactFrom : Reading → List Char → List Char
  | _, [] => []
  | .code, '/' :: '/' :: rest => compactFrom .lineComment rest
  | .code, '/' :: '*' :: rest => compactFrom (.comment 0) rest
  | .code, c :: rest =>
      if separates c then compactFrom .code rest else c :: compactFrom .code rest
  | .lineComment, c :: rest => compactFrom (if c = '\n' then .code else .lineComment) rest
  | .comment outer, '/' :: '*' :: rest => compactFrom (.comment (outer + 1)) rest
  | .comment 0, '*' :: '/' :: rest => compactFrom .code rest
  | .comment (outer + 1), '*' :: '/' :: rest => compactFrom (.comment outer) rest
  | .comment outer, _ :: rest => compactFrom (.comment outer) rest

/-- A source text without what only separates its parts. -/
def compact (source : String) : String :=
  String.ofList (compactFrom .code source.toList)

end CommandLine.Schema.Source
