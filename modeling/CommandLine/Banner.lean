/-!
# Banners

What a program says about itself above its output.
-/

namespace CommandLine

structure Banner where
  product : String := ""
  version : Option String := none
  copyright : Option String := none
  homepage : Option String := none
  deriving DecidableEq, Repr

namespace Banner

def firstLine (b : Banner) : String :=
  match b.version with
  | none => b.product
  | some version => b.product ++ " " ++ version

def lines (b : Banner) : List String :=
  b.firstLine :: (b.copyright.toList ++ b.homepage.toList)

def shown (b : Banner) : String :=
  String.join (b.lines.map (· ++ "\n"))

end Banner

end CommandLine
