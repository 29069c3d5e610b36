import CommandLine.Banner
import CommandLine.Parse.Binding

/-!
# Parsers

A parser reads command lines by a table of arguments.  It never changes, so it can be used for any
number of command lines.  Parsing has two phases: all tokens are taken, and only if none of them is
wrong is anything written into the destination.
-/

namespace CommandLine

structure Parser where
  table : Table
  responseFiles : Bool := false
  /-- Of response files without a byte order mark. -/
  encoding : Text.Encoding := .utf8
  programName : Option String := none
  banner : Banner := {}

/-- What a successful parse tells besides the destination. -/
structure Outcome where
  /-- The command line had no arguments at all. -/
  noArguments : Bool
  warnings : List String
  deriving DecidableEq, Repr

namespace Parser

/-- The configured name, or else that of the product. -/
def program (p : Parser) : String :=
  match p.programName with
  | some name => name
  | none => if p.banner.product = "" then "program" else p.banner.product

def source (p : Parser) (files : FileSystem) : Expansion.Source where
  files := files
  encoding := p.encoding
  enabled := p.responseFiles

/-- The first phase. -/
def takeArguments (p : Parser) (files : FileSystem) (arguments : List String) :
    Except ArgumentError State :=
  (State.start p.table).takeAll p.table (Expansion.events (p.source files) arguments)

/-- Parses a command line, without the program's name, into a destination. -/
def parse (p : Parser) (files : FileSystem) (arguments : List String) (destination : Record) :
    Record × Except ArgumentError Outcome :=
  match p.takeArguments files arguments with
  | .error error => (destination, .error error)
  | .ok state =>
      match Binding.bindAll destination state.held with
      | (bound, some error) => (bound, .error error)
      | (bound, none) => (bound, .ok ⟨!state.anySeen, state.warnings⟩)

end Parser

end CommandLine
