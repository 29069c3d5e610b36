/-!
# Annotated type definitions

A type whose members carry settings can be turned into declarations of arguments, or into a type of
values.  This is what such a definition consists of, as far as it matters for that.
-/

namespace CommandLine.Schema

inductive Shape
  | record
  | tuple
  | unit
  | enumeration
  | union
  deriving DecidableEq, Repr

/-- A key of a member's attribute, alone or with a text. -/
structure Setting where
  key : String
  text : Option String := none
  deriving DecidableEq, Repr

/-- An attribute that may document a member. -/
inductive Doc
  | text (s : String)
  /-- Documentation that is no text. -/
  | malformed
  /-- Documentation that would have to be computed first. -/
  | computed
  /-- No documentation at all. -/
  | unrelated
  deriving DecidableEq, Repr

/-- A field, or an alternative of an enumeration. -/
structure Member where
  name : Option String
  /-- The type of a field; an alternative has one only if it carries data. -/
  type : Option String := none
  docs : List Doc := []
  /-- The settings of each attribute; an attribute without any is still an attribute. -/
  attributes : List (List Setting) := []
  deriving DecidableEq, Repr

structure Definition where
  shape : Shape
  name : String
  /-- The type has parameters. -/
  generic : Bool := false
  members : List Member
  deriving DecidableEq, Repr

def Member.settings (m : Member) : List Setting :=
  m.attributes.flatten

end CommandLine.Schema
