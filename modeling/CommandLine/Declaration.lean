import CommandLine.Name
import CommandLine.Policy
import CommandLine.Slot
import CommandLine.Text.Quoted

/-!
# Declarations of arguments

An argument is drafted by a long name, the field it is bound to and a list of clauses; a later
clause overrides an earlier one of its kind, and flags add up.  A draft that passes the checks
becomes a declaration, whose policy is complete: an argument that can hold more than one value may
be given more than once, and is unique unless a clause said how often it may be given.
-/

namespace CommandLine

/-- An argument that should no longer be used; if that is fatal, using it is an error. -/
structure Obsolescence where
  message : String
  fatal : Bool
  deriving DecidableEq, Repr

inductive Clause
  | short (name : String)
  | description (text : String)
  | flag (flag : Flag)
  | policy (policy : Policy)
  /-- The argument receives the positional values. -/
  | positional
  | obsolete (message : String)
  | fatallyObsolete (message : String)
  deriving DecidableEq, Repr

structure Draft where
  long : String
  field : String
  slot : Slot
  clauses : List Clause

structure Declaration where
  long : String
  /-- The field of the destination. -/
  field : String
  slot : Slot
  short : Option String := none
  description : Option String := none
  policy : Policy := .none
  isPositional : Bool := false
  obsolescence : Option Obsolescence := none

/-- A declaration is mistaken, or conflicts with another one. -/
inductive ConfigurationError
  | emptyLongName
  | invalidName (name : String) (fault : NameFault)
  | uniqueWithoutMultiple (name : String)
  | multipleOnSingleValue (name : String) (kind : Kind)
  | duplicateDefault (first second : String)
  | duplicateLongName (name : String)
  | duplicateShortName (name : String)
  deriving DecidableEq, Repr

def ConfigurationError.message : ConfigurationError → String
  | .emptyLongName => "command-line arguments must have a non-empty long name"
  | .invalidName name fault =>
      "command-line argument name " ++ Text.quoted name ++ " " ++ fault.reason
  | .uniqueWithoutMultiple name =>
      s!"command-line argument '-{name}' is unique, but doesn't hold multiple values"
  | .multipleOnSingleValue name kind =>
      s!"command-line argument '-{name}' allows multiple values, but its slot is " ++ kind.described
  | .duplicateDefault first second =>
      s!"only one default argument is allowed, but both '{first}' and '{second}' are"
  | .duplicateLongName name => s!"command-line argument '-{name}' is declared more than once"
  | .duplicateShortName name =>
      s!"short name '/{name}' is used by more than one command-line argument"

/-- What is wrong with a name that could not be told apart on a command line. -/
def nameError? (name : String) : Option ConfigurationError :=
  (NameFault.find? name).map (.invalidName name)

namespace Declaration

def kind (d : Declaration) : Kind :=
  d.slot.kind

/-- Whether a name on the command line means this argument. -/
def answersTo (d : Declaration) (name : String) : Bool :=
  d.long == name || d.short == some name

def withClause (d : Declaration) : Clause → Declaration
  | .short name => { d with short := some name }
  | .description text => { d with description := some text }
  | .flag f => { d with policy := d.policy.union (.of f) }
  | .policy p => { d with policy := d.policy.union p }
  | .positional => { d with isPositional := true }
  | .obsolete message => { d with obsolescence := some ⟨message, false⟩ }
  | .fatallyObsolete message => { d with obsolescence := some ⟨message, true⟩ }

/-- The policy in effect for a slot that can hold more than one value. -/
def completePolicy (p : Policy) : Policy :=
  { p with unique := p.unique || !p.multiple, multiple := true }

/-- A slot for one value can be neither unique nor given more than once. -/
def policyError? (d : Declaration) : Option ConfigurationError :=
  if d.kind.isMultiValued then none
  else if d.policy.unique then some (.uniqueWithoutMultiple d.long)
  else if d.policy.multiple then some (.multipleOnSingleValue d.long d.kind)
  else none

/-- The first thing that is wrong with a declaration, if anything is. -/
def error? (d : Declaration) : Option ConfigurationError :=
  if d.long = "" then some .emptyLongName
  else nameError? d.long <|> d.short.bind nameError? <|> d.policyError?

/-- The declaration with its complete policy. -/
def completed (d : Declaration) : Declaration :=
  if d.kind.isMultiValued then { d with policy := completePolicy d.policy } else d

end Declaration

namespace Draft

/-- What the clauses say, before any check. -/
def stated (draft : Draft) : Declaration :=
  draft.clauses.foldl Declaration.withClause
    { long := draft.long, field := draft.field, slot := draft.slot }

def declaration (draft : Draft) : Except ConfigurationError Declaration :=
  match draft.stated.error? with
  | some error => .error error
  | none => .ok draft.stated.completed

end Draft

end CommandLine
