/-!
# Texts without the case of letters

Names of values may be written in any case, but only as far as ASCII letters go; every other
character counts exactly.
-/

namespace CommandLine.Text

/-- A text with its ASCII letters in lower case. -/
def folded (s : String) : String :=
  String.ofList (s.toList.map Char.toLower)

def sameIgnoringCase (a b : String) : Bool :=
  folded a == folded b

end CommandLine.Text
