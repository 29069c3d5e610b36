import CommandLine.Parser
import CommandLine.Text.Wrap

/-!
# Usage messages

A synopsis, and then every named argument in the order of the table: a tag that shows how it is
written, and next to it, in a column of its own, its wrapped description.  A tag too wide for its
column has the description start on the next line.  How a description is wrapped is left to a
wrapper.
-/

namespace CommandLine.Usage

/-- The widest tag, in bytes, that leaves room for a description on its line. -/
def tagLimit : Nat := 30

/-- Where descriptions start, in characters from the indentation. -/
def descriptionColumn : Nat := 31

def descriptionWidth : Nat := 47

def indentation : String := "  "

def spaces (n : Nat) : String :=
  String.ofList (List.replicate n ' ')

/-- Spaces up to a width in characters. -/
def padded (s : String) (width : Nat) : String :=
  s ++ spaces (width - s.length)

/-- A text with the indentation before each line of it that is not empty; `fresh` tells that a line
begins. -/
def indentFrom (fresh : Bool) : List Char → List Char
  | [] => []
  | '\n' :: rest => '\n' :: indentFrom true rest
  | c :: rest => (if fresh then indentation.toList else []) ++ c :: indentFrom false rest

def indented (s : String) : String :=
  String.ofList (indentFrom true s.toList)

def fragments (wrap : Text.Wrapper) (description : String) : List String :=
  wrap descriptionWidth description

/-- A description next to its tag, as lines without indentation. -/
def entry (wrap : Text.Wrapper) (tag description : String) : List String :=
  let column := spaces descriptionColumn
  match fragments wrap description with
  | [] => [tag]
  | first :: rest =>
      let head :=
        if tag.utf8ByteSize ≤ tagLimit then [padded tag descriptionColumn ++ first]
        else [tag, column ++ first]
      head ++ rest.map (column ++ ·)

/-- The short name, where the long name begins with it and goes on. -/
def abbreviation (d : Declaration) : Option String :=
  d.short.filter fun short => short ≠ d.long && short.toList.isPrefixOf d.long.toList

/-- The name in a tag; brackets hold what the short name leaves out. -/
def shownName (d : Declaration) : String :=
  match abbreviation d with
  | none => d.long
  | some short => short ++ "[" ++ String.ofList (d.long.toList.drop short.length) ++ "]"

def tag (d : Declaration) : String :=
  "-" ++ shownName d ++ d.slot.placeholder.shown

/-- The description, and the short name where the tag does not show it. -/
def description (d : Declaration) : String :=
  let text := d.description.getD ""
  match abbreviation d, d.short with
  | none, some short =>
      text ++ (if text = "" then "" else " ") ++ "(Short format: /" ++ short ++ ")"
  | _, _ => text

def declarationLines (wrap : Text.Wrapper) (d : Declaration) : List String :=
  entry wrap (tag d) (description d)

def responseFileTag : String := "@<file>"

def responseFileDescription : String := "Insert command-line settings from a text file."

def responseFileLines (wrap : Text.Wrapper) : List String :=
  entry wrap responseFileTag responseFileDescription

def synopsis (t : Table) : String :=
  match t.positional with
  | none => ""
  | some d =>
      let one := " <" ++ d.long ++ ">"
      if d.policy.multiple then one ++ one ++ " ..." else one

def lines (wrap : Text.Wrapper) (p : Parser) : List String :=
  let options := p.table.named.flatMap (declarationLines wrap) ++
    if p.responseFiles then responseFileLines wrap else []
  ["Usage : " ++ p.program ++ " [options]" ++ synopsis p.table, "Options :", ""] ++
    options.map indented

end CommandLine.Usage

namespace CommandLine

/-- The usage message of a parser, with wrapped descriptions. -/
def Parser.usageWith (wrap : Text.Wrapper) (p : Parser) : String :=
  String.join ((Usage.lines wrap p).map (· ++ "\n"))

def Parser.usage (p : Parser) : String :=
  p.usageWith Text.wrapped

end CommandLine
