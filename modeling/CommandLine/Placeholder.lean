/-!
# Placeholders

What stands for the value of an argument in a usage message, right after the argument's name.
-/

namespace CommandLine

inductive Placeholder
  | toggle
  | text
  | file
  | number
  | pair
  | named (name : String)
  deriving DecidableEq, Repr

namespace Placeholder

def shown : Placeholder → String
  | .toggle => "[+|-]"
  | .text => ":<text>"
  | .file => ":<filename>"
  | .number => ":<number>"
  | .pair => ":<n>=<v>"
  | .named name => ":<" ++ name ++ ">"

/-- What follows the last double colon, if there is one. -/
def unqualified? : List Char → Option (List Char)
  | ':' :: ':' :: rest => some ((unqualified? rest).getD rest)
  | _ :: rest => unqualified? rest
  | [] => none

/-- The name of a type without its parameters and without its path. -/
def ofTypeName (name : String) : Placeholder :=
  let base := name.toList.takeWhile (· ≠ '<')
  .named (String.ofList ((unqualified? base).getD base))

end Placeholder

end CommandLine
