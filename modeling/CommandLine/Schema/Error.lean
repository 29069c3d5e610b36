import CommandLine.Name
import CommandLine.Text.Quoted

/-!
# Why a definition is refused

The mistakes in an annotated definition, and their wording.  Most are reported by one message; a
repetition also points to the first use, and the settings of a member are reported all at once.
-/

namespace CommandLine.Schema

inductive Derivation
  | arguments
  | value
  deriving DecidableEq, Repr

def Derivation.shown : Derivation → String
  | .arguments => "`derive(Arguments)`"
  | .value => "`derive(Value)`"

inductive SettingFault
  | unknown (key : String)
  | repeated (key : String)
  /-- The key needs a text. -/
  | withoutText
  /-- The key takes no text. -/
  | withText
  /-- A truth value stands where a key should. -/
  | literal
  /-- The key is a word that the language of definitions keeps to itself, so that the attribute
  around it cannot be read at all. -/
  | reserved (word : String)
  deriving DecidableEq, Repr

def SettingFault.message : SettingFault → String
  | .unknown key => s!"Unknown field: `{key}`"
  | .repeated key => s!"Duplicate field `{key}`"
  | .withoutText => "Unexpected meta-item format `word`"
  | .withText => "Unexpected type `string`"
  | .literal => "Unexpected meta-item format `literal`"
  | .reserved word => s!"expected identifier, found keyword `{word}`"

inductive NameRole
  | long
  | short
  deriving DecidableEq, Repr

def NameRole.shown : NameRole → String
  | .long => "long"
  | .short => "short"

/-- What a name has to be like. -/
def nameProblem : NameFault → String
  | .empty => "must not be empty"
  | .separator => "must not contain ':', '+', or '-', which separate names from values"
  | .blank => "must not contain whitespace"
  | .quote => "must not contain quotes"
  | .start => "must not start with '@' or '/'"

inductive Error
  | genericType (derivation : Derivation)
  | unnamedFields
  | notARecord
  | settings (faults : List SettingFault)
  | invalidName (role : NameRole) (fault : NameFault)
  | malformedDoc
  | computedDoc
  | obsoleteTwice
  | repeatedLong (name : String)
  | repeatedShort (name : String)
  | repeatedPositional
  | dataInAlternative
  | repeatedAlternative (name : String)
  | noAlternatives
  | fieldCount
  | union
  deriving DecidableEq, Repr

/-- The messages of a repetition. -/
def repetitionMessages (what : String) : List String :=
  ["duplicate " ++ what, "original use here"]

def Error.messages : Error → List String
  | .genericType derivation => ["generic types aren't supported by " ++ derivation.shown]
  | .unnamedFields => ["`derive(Arguments)` needs a struct with named fields"]
  | .notARecord => ["`derive(Arguments)` only works on structs"]
  | .settings faults => faults.map SettingFault.message
  | .invalidName role fault => [role.shown ++ " argument names " ++ nameProblem fault]
  | .malformedDoc => ["malformed #[doc] attribute"]
  | .computedDoc => ["macro #[doc] attributes aren't supported"]
  | .obsoleteTwice => ["use only one of `obsolete` and `obsolete_fatal`"]
  | .repeatedLong name => repetitionMessages s!"argument name '-{name}'"
  | .repeatedShort name => repetitionMessages s!"short name '/{name}'"
  | .repeatedPositional =>
      repetitionMessages "default argument; only one field may be the default"
  | .dataInAlternative => ["`derive(Value)` only supports unit variants"]
  | .repeatedAlternative name =>
      repetitionMessages ("value name " ++ Text.quoted name ++ " (names are case-insensitive)")
  | .noAlternatives => ["`derive(Value)` needs at least one variant"]
  | .fieldCount => ["can only derive `Value` on structs with exactly one field"]
  | .union => ["can't derive `Value` on a union"]

end CommandLine.Schema
