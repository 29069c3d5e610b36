import CommandLine.Text.Blank
import CommandLine.Token

/-!
# Names of arguments

Which names can be told apart from values on a command line.  A name may not be empty or hold a
character that ends a name, a blank or a quote, nor begin like a reference to a response file or a
second option mark.
-/

namespace CommandLine

inductive NameFault
  | empty
  | separator
  | blank
  | quote
  | start
  deriving DecidableEq, Repr

namespace NameFault

/-- The first thing that is wrong with a name, if anything is. -/
def find? (name : String) : Option NameFault :=
  let cs := name.toList
  if cs.isEmpty then some .empty
  else if cs.any Token.isSeparator then some .separator
  else if cs.any Text.isBlank then some .blank
  else if cs.any (· = '"') then some .quote
  else if cs.head? = some '@' || cs.head? = some '/' then some .start
  else none

/-- As the end of a sentence about the name. -/
def reason : NameFault → String
  | .empty => "is empty"
  | .separator => "contains an option separator (':', '+', or '-')"
  | .blank => "contains whitespace"
  | .quote => "contains a quote"
  | .start => "starts with '@' or '/'"

end NameFault

end CommandLine
