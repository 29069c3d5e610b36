/-!
# Policies

A policy is a set of flags that say how an argument may be used.
-/

namespace CommandLine

inductive Flag
  /-- The argument must be given. -/
  | required
  /-- No value, and no name of a map, may be given twice. -/
  | unique
  /-- The argument may be given more than once. -/
  | multiple
  /-- The argument must be the only one on its command line. -/
  | exclusive
  deriving DecidableEq, Repr

namespace Flag

def all : List Flag :=
  [.required, .unique, .multiple, .exclusive]

def shown : Flag → String
  | .required => "REQUIRED"
  | .unique => "UNIQUE"
  | .multiple => "ALLOW_MULTIPLE"
  | .exclusive => "EXCLUSIVE"

end Flag

structure Policy where
  required : Bool := false
  unique : Bool := false
  multiple : Bool := false
  exclusive : Bool := false
  deriving DecidableEq, Repr

namespace Policy

def none : Policy := {}

def has (p : Policy) : Flag → Bool
  | .required => p.required
  | .unique => p.unique
  | .multiple => p.multiple
  | .exclusive => p.exclusive

def of : Flag → Policy
  | .required => { required := true }
  | .unique => { unique := true }
  | .multiple => { multiple := true }
  | .exclusive => { exclusive := true }

def union (p q : Policy) : Policy where
  required := p.required || q.required
  unique := p.unique || q.unique
  multiple := p.multiple || q.multiple
  exclusive := p.exclusive || q.exclusive

def ofFlags (flags : List Flag) : Policy :=
  flags.foldl (fun p f => p.union (of f)) none

/-- Every flag of `q` is one of `p`. -/
def contains (p q : Policy) : Bool :=
  Flag.all.all fun f => !q.has f || p.has f

def flags (p : Policy) : List Flag :=
  Flag.all.filter p.has

def shown (p : Policy) : String :=
  "\x7b" ++ ", ".intercalate (p.flags.map fun f => "\"" ++ f.shown ++ "\"") ++ "\x7d"

end Policy

end CommandLine
