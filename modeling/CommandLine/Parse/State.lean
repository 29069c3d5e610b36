import CommandLine.Parse.Expansion
import CommandLine.Table

/-!
# The state of a parse

For every argument of a table, whether it has been given and the items it has received so far, and
the warnings to be returned at the end.  Nothing is written into the destination yet.
-/

namespace CommandLine

/-- One argument during a parse. -/
structure Held where
  declaration : Declaration
  seen : Bool := false
  items : List Item := []

namespace Held

/-- Takes one occurrence of the argument. -/
def take (h : Held) (value : Option String) : Except ArgumentError Held :=
  let d := h.declaration
  if h.seen && !d.policy.multiple then .error (.duplicate d.long)
  else if value = some "" then .error (.invalidValue d.long "" .empty)
  else
    match d.slot.accept h.items value d.policy.unique with
    | .ok items => .ok { h with seen := true, items := items }
    | .error (.invalid cause) => .error (.invalidValue d.long (value.getD "") cause)
    | .error (.repeated text) => .error (.duplicateValue d.long text)

end Held

structure State where
  /-- In the order of the table: the named arguments, then the one for positional values. -/
  held : List Held
  warnings : List String := []

namespace State

def start (t : Table) : State where
  held := t.all.map fun d => { declaration := d }

def anySeen (s : State) : Bool :=
  s.held.any Held.seen

/-- Gives one occurrence to the argument at a position. -/
def give (s : State) (position : Nat) (h : Held) (value : Option String) :
    Except ArgumentError State :=
  match h.take value with
  | .error error => .error error
  | .ok taken => .ok { s with held := s.held.set position taken }

/-- Gives one occurrence out of a list of `count` arguments; an exclusive argument has to be alone
in its list. -/
def giveAmong (s : State) (count position : Nat) (h : Held) (value : Option String) :
    Except ArgumentError State :=
  if h.declaration.policy.exclusive && 1 < count then .error (.exclusive h.declaration.long)
  else s.give position h value

def warn (s : State) (notice : String) : State :=
  { s with warnings := s.warnings ++ [notice] }

/-- Takes an option that names the argument at a position. -/
def takeNamed (s : State) (count position : Nat) (h : Held) (value : Option String) :
    Except ArgumentError State :=
  let name := h.declaration.long
  match h.declaration.obsolescence with
  | none => s.giveAmong count position h value
  | some o =>
      if o.fatal then .error (.obsolete name o.message)
      else (s.warn (obsolescenceNotice name o.message)).giveAmong count position h value

/-- Where a token belongs in a table: the position of its argument, and its value. -/
def target (t : Table) : Token → Option (Nat × Option String)
  | .named _ name value => (t.position name).map (·, value)
  | .positional value => t.positional.map fun _ => (t.named.length, some value)
  | .responseFile _ => none

/-- The text that is reported for a token that belongs nowhere. -/
def writtenToken : Token → String
  | .named written _ _ => written
  | .positional value => value
  | .responseFile path => "@" ++ path

def takeToken (t : Table) (s : State) (count : Nat) (token : Token) :
    Except ArgumentError State :=
  let unknown := ArgumentError.unknown (writtenToken token)
  match target t token with
  | none => .error unknown
  | some (position, value) =>
      match s.held[position]?, token with
      | none, _ => .error unknown
      | some h, .named _ _ _ => s.takeNamed count position h value
      | some h, _ => s.give position h value

def take (t : Table) (s : State) : Event → Except ArgumentError State
  | .token count token => takeToken t s count token
  | .failure error => .error error

/-- Takes events in order up to the first that is refused. -/
def takeAll (t : Table) (s : State) (events : List Event) : Except ArgumentError State :=
  events.foldlM (take t) s

end State

end CommandLine
