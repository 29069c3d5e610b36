/-!
# Invocations

The words that a program is started with.  The first one, if there is any, is the program's own name
and is never parsed.
-/

namespace CommandLine

structure Invocation where
  words : List String

namespace Invocation

def programName (i : Invocation) : Option String :=
  i.words.head?

def arguments (i : Invocation) : List String :=
  i.words.drop 1

end Invocation

end CommandLine
