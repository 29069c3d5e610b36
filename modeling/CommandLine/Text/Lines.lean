/-!
# Lines of a text

A line ends with a line feed, and a carriage return right before the line feed is part of that end.
The last line may go without an end, and no other line begins behind the end of the last one.
-/

namespace CommandLine.Text

def lines : List Char → List (List Char)
  | [] => []
  | c :: cs =>
      if c = '\n' then [] :: lines cs
      else if c = '\r' && cs.head? = some '\n' then lines cs
      else
        match lines cs with
        | [] => [[c]]
        | line :: rest => (c :: line) :: rest

end CommandLine.Text
