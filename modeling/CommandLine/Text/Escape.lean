/-!
# Terminal escape sequences

Text for a terminal may hold escape sequences that take no room and must not be divided by a line
break.  A sequence is the escape character and what follows it: up to a final byte after `[`, up to
a bell or a string terminator after `]`, and a single character otherwise.
-/

namespace CommandLine.Text.Escape

inductive State
  | outside
  | introduced
  /-- After the escape character and `[`. -/
  | control
  /-- After the escape character and `]`; `ending` says that an escape character came last. -/
  | command (ending : Bool)
  deriving DecidableEq, Repr

def step (state : State) (c : Char) : State :=
  match state with
  | .outside => if c = '\x1b' then .introduced else .outside
  | .introduced => if c = '[' then .control else if c = ']' then .command false else .outside
  | .control => if '@' ≤ c && c ≤ '~' then .outside else .control
  | .command ending =>
      if c = '\x07' || (c = '\\' && ending) then .outside else .command (c = '\x1b')

def visibleFrom (state : State) : List Char → List Bool
  | [] => []
  | c :: cs => (state = .outside && c ≠ '\x1b') :: visibleFrom (step state c) cs

/-- For each character, whether it is outside of all escape sequences. -/
def visible (cs : List Char) : List Bool :=
  visibleFrom .outside cs

end CommandLine.Text.Escape
