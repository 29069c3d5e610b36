import CommandLine.Declaration
import CommandLine.Schema.Settings

/-!
# Arguments from a record type

Every field of a record type that has an attribute becomes an argument.  Its settings give the
clauses of the declaration; without a long name the field's own name is used, and without a
description the documentation of the field.  Mistakes are found here already, with the same rules
for names that a table of arguments has.
-/

namespace CommandLine.Schema

/-- An argument as a field declares it. -/
structure ArgumentField where
  field : String
  type : String
  long : String
  clauses : List Clause
  deriving DecidableEq, Repr

def argumentKeys : List Key :=
  [⟨"long", .text⟩, ⟨"short", .text⟩, ⟨"description", .text⟩, ⟨"required", .flag⟩,
    ⟨"unique", .flag⟩, ⟨"multiple", .flag⟩, ⟨"exclusive", .flag⟩, ⟨"default", .flag⟩,
    ⟨"obsolete", .optionalText⟩, ⟨"obsolete_fatal", .optionalText⟩]

/-- The texts of the documentation, one for each attribute. -/
def docTexts : List Doc → Except Error (List String)
  | [] => .ok []
  | .text s :: rest => (docTexts rest).map (s :: ·)
  | .unrelated :: rest => docTexts rest
  | .malformed :: _ => .error .malformedDoc
  | .computed :: _ => .error .computedDoc

/-- Documentation as one description: the texts that are not blank, trimmed, with single spaces
between them. -/
def joinDocs (texts : List String) : String :=
  let trimmed := texts.map fun s => String.ofList (Text.trim s.toList)
  " ".intercalate (trimmed.filter (· ≠ ""))

def checkName (role : NameRole) (name : String) : Except Error Unit :=
  match NameFault.find? name with
  | none => .ok ()
  | some fault => .error (.invalidName role fault)

/-- A short name may be missing. -/
def checkShort : Option String → Except Error Unit
  | none => .ok ()
  | some short => checkName .short short

def obsolescenceClauses (settings : List Setting) : Except Error (List Clause) :=
  let message (key : String) := (textOf settings key).getD ""
  match isSet settings "obsolete", isSet settings "obsolete_fatal" with
  | true, true => .error .obsoleteTwice
  | true, false => .ok [.obsolete (message "obsolete")]
  | false, true => .ok [.fatallyObsolete (message "obsolete_fatal")]
  | false, false => .ok []

def flagClauses (settings : List Setting) : List Clause :=
  let flags : List (String × Clause) :=
    [("required", .flag .required), ("unique", .flag .unique), ("multiple", .flag .multiple),
      ("exclusive", .flag .exclusive), ("default", .positional)]
  (flags.filter fun (key, _) => isSet settings key).map Prod.snd

def description (settings : List Setting) (docs : List Doc) : Except Error String :=
  match textOf settings "description" with
  | some given => .ok given
  | none => (docTexts docs).map joinDocs

/-- The argument that a field declares by settings in which nothing is wrong. -/
def declaredArgument (m : Member) (settings : List Setting) : Except Error ArgumentField := do
  let name := m.name.getD ""
  let long := (textOf settings "long").getD name
  let short := textOf settings "short"
  checkName .long long
  checkShort short
  let description ← description settings m.docs
  let obsolescence ← obsolescenceClauses settings
  let described := if description = "" then [] else [Clause.description description]
  return {
    field := name
    type := m.type.getD ""
    long := long
    clauses := short.toList.map .short ++ described ++ flagClauses settings ++ obsolescence }

/-- The argument that a field declares, if it has an attribute. -/
def argumentOf (reader : Reader) (m : Member) : Except Error (Option ArgumentField) :=
  if m.attributes = [] then .ok none
  else
    match reader argumentKeys m with
    | .error error => .error error
    | .ok settings => (declaredArgument m settings).map some

def ArgumentField.short (a : ArgumentField) : Option String :=
  a.clauses.findSome? fun
    | .short name => some name
    | _ => none

def ArgumentField.isPositional (a : ArgumentField) : Bool :=
  a.clauses.contains .positional

/-- The first thing that an argument shares with one before it, if there is any. -/
def conflict (earlier : List ArgumentField) (a : ArgumentField) : Option Error :=
  if earlier.any (·.long == a.long) then some (.repeatedLong a.long)
  else
    match a.short.filter fun short => earlier.any (·.short == some short) with
    | some short => some (.repeatedShort short)
    | none =>
        if a.isPositional && earlier.any ArgumentField.isPositional then some .repeatedPositional
        else none

def checkConflicts (earlier : List ArgumentField) : List ArgumentField → Except Error Unit
  | [] => .ok ()
  | a :: rest =>
      match conflict earlier a with
      | some error => .error error
      | none => checkConflicts (earlier ++ [a]) rest

/-- The arguments that the fields of a record declare, in their order. -/
def argumentsOf (reader : Reader) (members : List Member) :
    Except Error (List ArgumentField) := do
  let declared := (← members.mapM (argumentOf reader)).filterMap id
  checkConflicts [] declared
  return declared

/-- The arguments that a type declares by settings as some reader takes them. -/
def argumentsWith (reader : Reader) (d : Definition) : Except Error (List ArgumentField) :=
  if d.generic then .error (.genericType .arguments)
  else
    match d.shape with
    | .record => argumentsOf reader d.members
    | .tuple | .unit => .error .unnamedFields
    | .enumeration | .union => .error .notARecord

def arguments (d : Definition) : Except Error (List ArgumentField) :=
  argumentsWith checkedSettings d

/-- The draft of an argument whose field is a slot. -/
def ArgumentField.draft (a : ArgumentField) (slot : Slot) : Draft where
  long := a.long
  field := a.field
  slot := slot
  clauses := a.clauses

end CommandLine.Schema
