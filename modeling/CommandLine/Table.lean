import CommandLine.Declaration

/-!
# Tables of arguments

All the arguments of a command line: the named ones in the order of declaration, and at most one
that receives the positional values.  No two of them share a long name or a short name, but the
short name of one may be the long name of another, and then the long name wins.
-/

namespace CommandLine

structure Table where
  named : List Declaration := []
  positional : Option Declaration := none

namespace Table

def empty : Table := {}

/-- The named arguments, then the one for positional values. -/
def all (t : Table) : List Declaration :=
  t.named ++ t.positional.toList

def usesLong (t : Table) (name : String) : Bool :=
  t.all.any (·.long == name)

def usesShort (t : Table) (name : String) : Bool :=
  t.all.any (·.short == some name)

/-- What keeps a declaration from joining the table, if anything does. -/
def conflict? (t : Table) (d : Declaration) : Option ConfigurationError :=
  if t.usesLong d.long then some (.duplicateLongName d.long)
  else
    match d.short.filter t.usesShort with
    | some short => some (.duplicateShortName short)
    | none =>
        if d.isPositional then
          t.positional.map fun first => .duplicateDefault first.long d.long
        else none

def insert (t : Table) (d : Declaration) : Table :=
  if d.isPositional then { t with positional := some d } else { t with named := t.named ++ [d] }

/-- Adds a declaration that conflicts with none before it. -/
def add (t : Table) (d : Declaration) : Except ConfigurationError Table :=
  match t.conflict? d with
  | some error => .error error
  | none => .ok (t.insert d)

def addDraft (t : Table) (draft : Draft) : Except ConfigurationError Table :=
  match draft.declaration with
  | .error error => .error error
  | .ok d => t.add d

def ofDrafts (drafts : List Draft) : Except ConfigurationError Table :=
  drafts.foldlM addDraft empty

/-- Where a name is found among the named arguments: as a long name, or else as a short one. -/
def position (t : Table) (name : String) : Option Nat :=
  t.named.findIdx? (·.long == name) <|> t.named.findIdx? (·.short == some name)

def find (t : Table) (name : String) : Option Declaration :=
  (t.position name).bind (t.named[·]?)

end Table

end CommandLine
