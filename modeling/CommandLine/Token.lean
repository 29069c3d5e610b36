/-!
# Tokens of a command line

An argument that begins with `-` or `/` names an option, one that begins with `@` refers to a
response file where these are enabled, and any other is positional.  Empty arguments are passed
over.

The name of an option ends before the first `:`, `+` or `-`.  A colon there introduces the value;
any other text after the name is the value as it stands, so `-debug+` gives `debug` the value `+`.
-/

namespace CommandLine

inductive Token
  /-- `written` is the whole argument. -/
  | named (written name : String) (value : Option String)
  | responseFile (path : String)
  | positional (value : String)
  deriving DecidableEq, Repr

namespace Token

def isSeparator (c : Char) : Bool :=
  c = ':' || c = '+' || c = '-'

/-- The name and the value of an option, from what follows its first character. -/
def splitBody (body : List Char) : List Char × Option (List Char) :=
  let name := body.takeWhile (!isSeparator ·)
  match body.dropWhile (!isSeparator ·) with
  | [] => (name, none)
  | ':' :: value => (name, some value)
  | value => (name, some value)

/-- The name and the value of an option. -/
def splitOption (argument : String) : String × Option String :=
  let (name, value) := splitBody (argument.toList.drop 1)
  (String.ofList name, value.map String.ofList)

/-- Nothing for an empty argument. -/
def classify (responseFiles : Bool) (argument : String) : Option Token :=
  match argument.toList with
  | [] => none
  | first :: rest =>
      if first = '-' || first = '/' then
        let (name, value) := splitOption argument
        some (.named argument name value)
      else if first = '@' && responseFiles then some (.responseFile (String.ofList rest))
      else some (.positional argument)

/-- The tokens of a command line, in order. -/
def ofArguments (responseFiles : Bool) (arguments : List String) : List Token :=
  arguments.filterMap (classify responseFiles)

end Token

end CommandLine
