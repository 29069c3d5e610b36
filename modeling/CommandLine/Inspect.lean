import CommandLine.Table

/-!
# Declarations at a glance

One line about a declaration or a table, for the eyes of a developer.
-/

namespace CommandLine

def shownOption (s : Option String) : String :=
  match s with
  | none => "None"
  | some s => "Some(" ++ Text.quoted s ++ ")"

def shownBool (b : Bool) : String :=
  if b then "true" else "false"

/-- A record with its fields between braces. -/
def shownRecord (name : String) (fields : List (String × String)) (more : Bool) : String :=
  let fields := fields.map fun (name, value) => name ++ ": " ++ value
  name ++ " \x7b " ++ ", ".intercalate (fields ++ if more then [".."] else []) ++ " \x7d"

def Kind.shown : Kind → String
  | .scalar => "Scalar"
  | .boolean => "Boolean"
  | .array => "Array"
  | .collection => "OrderedCollection"
  | .map => "KeyValueMap"

def Obsolescence.shown (o : Obsolescence) : String :=
  shownRecord "Obsolete" [("message", Text.quoted o.message), ("fatal", shownBool o.fatal)] false

def Declaration.shown (d : Declaration) : String :=
  let obsolete :=
    match d.obsolescence with
    | none => "None"
    | some o => "Some(" ++ o.shown ++ ")"
  shownRecord "ArgumentSpec"
    [("long_name", Text.quoted d.long), ("short_name", shownOption d.short),
      ("description", shownOption d.description), ("kind", d.kind.shown),
      ("policy", d.policy.shown), ("is_default", shownBool d.isPositional),
      ("obsolete", obsolete)]
    true

def Table.shown (t : Table) : String :=
  let default :=
    match t.positional with
    | none => "None"
    | some d => "Some(" ++ d.shown ++ ")"
  shownRecord "SpecTable"
    [("named", "[" ++ ", ".intercalate (t.named.map Declaration.shown) ++ "]"),
      ("default", default)]
    false

end CommandLine
