import CommandLine.Text.Utf8
import CommandLine.Usage

/-!
# The command line of a build tool

A small program that shows the library at work.  It reads the options of a build, and prints what
it would build, its usage, or what is wrong with its command line.
-/

namespace CommandLine.BuildTool

/-- The level of detail of the log. -/
def levelType : ValueType :=
  .enumeration "Level"
    [⟨"Quiet", "Quiet"⟩, ⟨"Normal", "Normal"⟩, ⟨"Verbose", "Verbose"⟩, ⟨"Debug", "Debug"⟩]

/-- An argument that is bound to the field of the same name. -/
def draft (name : String) (slot : Slot) (clauses : List Clause) : Draft :=
  ⟨name, name, slot, clauses⟩

def drafts : List Draft :=
  [draft "buildfile" (.optional .path) [.short "f", .description "Use the given build file."],
    draft "D" (.map .arrivalMap) [.description "Use a value for the given property."],
    draft "verbose" (.single .toggle)
      [.short "v", .description "Displays more information during the build process."],
    draft "quiet" (.single .toggle)
      [.short "q", .description "Displays only error or warning messages."],
    draft "logger" (.optional .text) [.description "Use the given type as the logger."],
    draft "listener" (.collection .text .list)
      [.description "Add an instance of the given type to the listeners.", .flag .multiple],
    draft "logfile" (.optional .path)
      [.short "l", .description "Write the build log to the given file."],
    draft "indent" (.single (.integer ⟨false, 32⟩))
      [.description "The indentation level of the build output."],
    draft "level" (.single levelType) [.description "The level of detail to log."],
    draft "nologo" (.single .toggle) [.description "Suppresses display of the logo banner."],
    draft "debug" (.single .toggle) [.obsolete "Use the -verbose argument instead."],
    draft "help" (.single .toggle)
      [.short "h", .description "Prints this message.", .flag .exclusive],
    draft "targets" (.collection .text .list) [.positional]]

def banner : Banner where
  product := "bindargs-demo"
  version := some "0.1.0"
  copyright := some "Copyright (C) the bindargs developers"

def parser : Except ConfigurationError Parser := do
  return {
    table := ← Table.ofDrafts drafts
    responseFiles := true
    programName := some "bindargs-demo"
    banner := banner }

structure Options where
  buildfile : Option String := none
  properties : List (String × String) := []
  verbose : Bool := false
  quiet : Bool := false
  logger : Option String := none
  listeners : List String := []
  logfile : Option String := none
  indent : String := "0"
  level : String := "Normal"
  nologo : Bool := false
  help : Bool := false
  targets : List String := []

/-- The values among the contents of a field, in writing. -/
def written (contents : Contents) : List String :=
  contents.filterMap fun
    | .value v => some v.written
    | .pair _ _ => none

def isOn (contents : Contents) : Bool :=
  contents = [.value (.toggle true)]

def properties (contents : Contents) : List (String × String) :=
  contents.filterMap fun
    | .value _ => none
    | .pair name value => some (name, value)

namespace Options

/-- The options that fields stand for; a field that was never written stands for its default. -/
def ofRecord (r : Record) : Options :=
  let default : Options := {}
  { buildfile := (written (r "buildfile")).head?
    properties := BuildTool.properties (r "D")
    verbose := isOn (r "verbose")
    quiet := isOn (r "quiet")
    logger := (written (r "logger")).head?
    listeners := written (r "listener")
    logfile := (written (r "logfile")).head?
    indent := (written (r "indent")).headD default.indent
    level := (written (r "level")).headD default.level
    nologo := isOn (r "nologo")
    help := isOn (r "help")
    targets := written (r "targets") }

/-- What is printed about a build. -/
def report (o : Options) : List String :=
  ["Build file: " ++ o.buildfile.getD "(search the current directory)",
    "Targets:    " ++ ", ".intercalate o.targets,
    "Level:      " ++ o.level,
    "Indent:     " ++ o.indent] ++
  o.logger.toList.map ("Logger:     " ++ ·) ++
  o.logfile.toList.map ("Log file:   " ++ ·) ++
  o.listeners.map ("Listener:   " ++ ·) ++
  o.properties.map fun (name, value) => "Property:   " ++ name ++ " = " ++ value

end Options

inductive Error
  | declarations (cause : ConfigurationError)
  | arguments (cause : ArgumentError)
  | conflict
  deriving DecidableEq, Repr

namespace Error

/-- The error and its causes. -/
def messages : Error → List String
  | .declarations cause => ["the command-line declarations are invalid", cause.message]
  | .arguments cause =>
      ["invalid command line; use -help for usage", cause.message] ++ cause.causeMessage.toList
  | .conflict => ["-verbose and -quiet can't both be given"]

/-- Bad input is told apart from broken declarations. -/
def exitCode : Error → UInt32
  | .declarations _ => 3
  | .arguments _ | .conflict => 2

end Error

/-- What a run of the program does. -/
structure Run where
  code : UInt32
  stdout : String
  stderr : String
  deriving DecidableEq, Repr

namespace Run

def success (stdout : String) : Run :=
  ⟨0, stdout, ""⟩

def failure (stdout : String) (error : Error) : Run :=
  ⟨error.exitCode, stdout, ": ".intercalate error.messages ++ "\n"⟩

end Run

/-- The run after a successful parse. -/
def runWith (p : Parser) (o : Options) (outcome : Outcome) : Run :=
  let logo := if o.nologo then "" else p.banner.shown ++ "\n"
  if o.help || outcome.noArguments then .success (logo ++ p.usage)
  else if o.verbose && o.quiet then .failure logo .conflict
  else .success (logo ++ String.join (o.report.map (· ++ "\n")))

def run (files : FileSystem) (arguments : List String) : Run :=
  match parser with
  | .error cause => .failure "" (.declarations cause)
  | .ok p =>
      match p.parse files arguments .empty with
      | (_, .error cause) => .failure "" (.arguments cause)
      | (r, .ok outcome) => runWith p (.ofRecord r) outcome

/-- Arguments as the operating system gives them; what is not UTF-8 is replaced. -/
def runOnBytes (files : FileSystem) (arguments : List (List UInt8)) : Run :=
  run files (arguments.map fun bytes => String.ofList (Text.Utf8.decodeLossy bytes))

end CommandLine.BuildTool
