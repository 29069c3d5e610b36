import CommandLine.Schema.Settings
import CommandLine.Text.Case
import CommandLine.Value.Type

/-!
# Types of values from a definition

An enumeration whose alternatives carry no data becomes a type of values: each alternative is chosen
by its name, up to the case of ASCII letters, so no two names may differ in nothing else.  A type
with a single field takes over the values of that field's type.
-/

namespace CommandLine.Schema

inductive DerivedValue
  | enumeration (alternatives : List ValueType.Alternative)
  /-- A type around the type of one field, which has a name in a record. -/
  | wrapper (field : Option String) (type : String)
  deriving DecidableEq, Repr

def alternativeKeys : List Key :=
  [⟨"name", .text⟩]

/-- The alternative that a member declares after others with the names `earlier`. -/
def alternativeOf (reader : Reader) (earlier : List String) (m : Member) :
    Except Error ValueType.Alternative :=
  if m.type.isSome then .error .dataInAlternative
  else
    match reader alternativeKeys m with
    | .error error => .error error
    | .ok settings =>
        let variant := m.name.getD ""
        let name := (textOf settings "name").getD variant
        if earlier.any (Text.sameIgnoringCase · name) then
          .error (.repeatedAlternative (Text.folded name))
        else .ok ⟨name, variant⟩

def alternatives (reader : Reader) (earlier : List String) :
    List Member → Except Error (List ValueType.Alternative)
  | [] => .ok []
  | m :: rest => do
      let first ← alternativeOf reader earlier m
      let others ← alternatives reader (earlier ++ [first.name]) rest
      return first :: others

def enumeration (reader : Reader) (members : List Member) : Except Error DerivedValue :=
  match alternatives reader [] members with
  | .error error => .error error
  | .ok [] => .error .noAlternatives
  | .ok found => .ok (.enumeration found)

/-- The type of values that a definition becomes, with settings as some reader takes them. -/
def valueWith (reader : Reader) (d : Definition) : Except Error DerivedValue :=
  if d.generic then .error (.genericType .value)
  else
    match d.shape with
    | .enumeration => enumeration reader d.members
    | .union => .error .union
    | .record | .tuple | .unit =>
        match d.members with
        | [m] => .ok (.wrapper m.name (m.type.getD ""))
        | _ => .error .fieldCount

def value (d : Definition) : Except Error DerivedValue :=
  valueWith checkedSettings d

end CommandLine.Schema
