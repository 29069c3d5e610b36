import CommandLine.Schema.Definition
import CommandLine.Schema.Error

/-!
# Checking settings

Each kind of member knows some keys, and each key may be set once in all attributes of a member
together.  All that is wrong with the settings of a member is found in one go, in their order; but
an attribute with a reserved word for a key is not read, so that this is all that is wrong with it.
-/

namespace CommandLine.Schema

/-- Whether a key comes with a text. -/
inductive KeyForm
  | text
  | flag
  | optionalText
  deriving DecidableEq, Repr

structure Key where
  name : String
  form : KeyForm
  deriving DecidableEq, Repr

def KeyForm.fault : KeyForm → Option String → Option SettingFault
  | .text, none => some .withoutText
  | .flag, some _ => some .withText
  | _, _ => none

def truthValues : List String :=
  ["false", "true"]

/-- The words that are no identifiers.  Those that can begin a path, such as `self`, are left out:
a key may be a path, if one that nothing knows. -/
def reservedWords : List String :=
  truthValues ++
    ["_", "abstract", "as", "async", "await", "become", "box", "break", "const", "continue", "do",
      "dyn", "else", "enum", "extern", "final", "fn", "for", "if", "impl", "in", "let", "loop",
      "macro", "match", "mod", "move", "mut", "override", "priv", "pub", "ref", "return",
      "static", "struct", "trait", "try", "type", "typeof", "unsized", "use", "virtual", "where",
      "while", "yield"]

/-- A truth value without a text. -/
def Setting.isLiteral (s : Setting) : Bool :=
  s.text.isNone && truthValues.contains s.key

/-- The reserved word in an attribute that keeps it from being read, if there is one. -/
def reservedWord? (settings : List Setting) : Option String :=
  (settings.find? fun s => reservedWords.contains s.key && !s.isLiteral).map Setting.key

/-- What is wrong with a setting after other settings with the keys `earlier`. -/
def settingFault (keys : List Key) (earlier : List String) (s : Setting) : Option SettingFault :=
  match keys.find? (·.name == s.key) with
  | none => some (if s.isLiteral then .literal else .unknown s.key)
  | some key =>
      if earlier.contains s.key then some (.repeated s.key) else key.form.fault s.text

def settingFaults (keys : List Key) (earlier : List String) : List Setting → List SettingFault
  | [] => []
  | s :: rest =>
      (settingFault keys earlier s).toList ++ settingFaults keys (s.key :: earlier) rest

/-- What is wrong with the attributes of a member after settings with the keys `earlier`. -/
def attributeFaults (keys : List Key) (earlier : List String) :
    List (List Setting) → List SettingFault
  | [] => []
  | settings :: rest =>
      match reservedWord? settings with
      | some word => .reserved word :: attributeFaults keys earlier rest
      | none =>
          settingFaults keys earlier settings ++
            attributeFaults keys (settings.map Setting.key ++ earlier) rest

/-- A way to read the settings of a member that may have some keys. -/
abbrev Reader := List Key → Member → Except Error (List Setting)

/-- The settings of a member, if nothing is wrong with them. -/
def checkedSettings : Reader := fun keys m =>
  match attributeFaults keys [] m.attributes with
  | [] => .ok m.settings
  | faults => .error (.settings faults)

def isSet (settings : List Setting) (key : String) : Bool :=
  settings.any (·.key == key)

/-- The text of a key, if the key is set and has one. -/
def textOf (settings : List Setting) (key : String) : Option String :=
  (settings.find? (·.key == key)).bind Setting.text

end CommandLine.Schema
