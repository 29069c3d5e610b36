import CommandLine.BuildTool

/-!
# The program

Runs the build tool on the arguments of the process.  The response files that the arguments refer
to, directly or through other files, are read first, so that the rest of the program works on a
fixed picture of the file system.
-/

namespace CommandLine.Program

/-- Adds what is at a path. -/
def learnNode (files : FileSystem) (path : String) : IO FileSystem := do
  let found := (← IO.currentDir) / path
  if ← found.isDir then
    return files.addDirectory path
  try
    return files.addFile path (← IO.FS.readBinFile found).toList
  catch _ => return files

/-- Adds what a path leads to, and the directories on the way. -/
def learnPath (files : FileSystem) (path : String) : IO FileSystem := do
  let mut known := files
  let mut way := if path.startsWith "/" then "/" else ""
  for name in FileSystem.namesOf path do
    way := way ++ String.ofList name
    known ← learnNode known way
    way := way ++ "/"
  return known

/-- Adds the files that arguments refer to; `visited` are the references followed so far. -/
partial def learn (files : FileSystem) (visited : List String) (arguments : List String) :
    IO (FileSystem × List String) := do
  let mut known := files
  let mut seen := visited
  for token in Token.ofArguments true arguments do
    if let .responseFile path := token then
      unless seen.contains path do
        seen := path :: seen
        known ← learnPath known path
        if let .ok tokens := ResponseFile.read known .utf8 path then
          (known, seen) ← learn known seen tokens
  return (known, seen)

def run (arguments : List String) : IO UInt32 := do
  let directory := (← IO.currentDir).toString
  let (files, _) ← learn (.empty directory) [] arguments
  let run := BuildTool.run files arguments
  IO.print run.stdout
  IO.eprint run.stderr
  return run.code

end CommandLine.Program

def main (arguments : List String) : IO UInt32 :=
  CommandLine.Program.run arguments
