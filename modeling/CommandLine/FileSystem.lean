import CommandLine.Text.Pieces

/-!
# Files

The files that a command line can refer to, as a value: finitely many nodes of a tree, each at the
place that its names lead to from the root, and a working directory.  A path is followed step by
step.  A step from a file fails, `.` and empty steps stay, and `..` goes back to the directory
before.  What is added to a file system is added with the directories on the way.
-/

namespace CommandLine

/-- The names that lead to a file or a directory from the root. -/
abbrev Place := List (List Char)

/-- Where one step of a path leads, whether or not anything is there. -/
def Place.follow (place : Place) (name : List Char) : Place :=
  if name = [] || name = ['.'] then place
  else if name = ['.', '.'] then place.dropLast
  else place ++ [name]

inductive Node
  | file (content : List UInt8)
  | directory
  deriving DecidableEq, Repr

/-- Why a file cannot be read. -/
inductive AccessError
  | notFound
  | notADirectory
  | isADirectory
  | tooLong
  | zeroByte
  deriving DecidableEq, Repr

def AccessError.message : AccessError → String
  | .notFound => "No such file or directory (os error 2)"
  | .notADirectory => "Not a directory (os error 20)"
  | .isADirectory => "Is a directory (os error 21)"
  | .tooLong => "File name too long (os error 36)"
  | .zeroByte => "file name contained an unexpected NUL byte"

structure FileSystem where
  working : Place
  nodes : List (Place × Node)
  deriving Inhabited

namespace FileSystem

/-- The names in a path that is written without `.` and `..`. -/
def namesOf (path : String) : List (List Char) :=
  (Text.piecesAt '/' path.toList).filter (· ≠ [])

/-- Nothing but a working directory. -/
def empty (working : String) : FileSystem :=
  ⟨namesOf working, []⟩

/-- Where a path starts. -/
def start (fs : FileSystem) (path : String) : Place :=
  if path.toList.head? = some '/' then [] else fs.working

/-- The places on the way along a path that exists, the first and the last included. -/
def way (fs : FileSystem) (path : String) : List Place :=
  (Text.piecesAt '/' path.toList).scanl Place.follow (fs.start path)

def addDirectory (fs : FileSystem) (path : String) : FileSystem :=
  { fs with nodes := (fs.way path).map (·, .directory) ++ fs.nodes }

def addFile (fs : FileSystem) (path : String) (content : List UInt8) : FileSystem :=
  let place := (Text.piecesAt '/' path.toList).foldl Place.follow (fs.start path)
  let parents := (fs.way path).dropLast
  { fs with nodes := (place, .file content) :: parents.map (·, .directory) ++ fs.nodes }

/-- The number of nodes, which bounds the number of files. -/
def size (fs : FileSystem) : Nat :=
  fs.nodes.length

/-- What is at a place.  The places on the way to a node or to the working directory are
directories. -/
def nodeAt (fs : FileSystem) (place : Place) : Option Node :=
  match fs.nodes.lookup place with
  | some node => some node
  | none =>
      if (fs.working :: fs.nodes.map Prod.fst).any place.isPrefixOf then some .directory else none

/-- The most bytes that a name may have. -/
def longestName : Nat := 255

/-- The most bytes that a path may have. -/
def longestPath : Nat := 4095

/-- One step of a path. -/
def step (fs : FileSystem) (place : Place) (name : List Char) : Except AccessError Place :=
  match fs.nodeAt place with
  | none => .error .notFound
  | some (.file _) => .error .notADirectory
  | some .directory =>
      if (String.ofList name).utf8ByteSize > longestName then .error .tooLong
      else if (fs.nodeAt (place.follow name)).isSome then .ok (place.follow name)
      else .error .notFound

/-- The place of the file or directory that a path leads to. -/
def resolve (fs : FileSystem) (path : String) : Except AccessError Place :=
  if path = "" then .error .notFound
  else if path.contains '\x00' then .error .zeroByte
  else if path.utf8ByteSize > longestPath then .error .tooLong
  else (Text.piecesAt '/' path.toList).foldlM fs.step (fs.start path)

/-- Whether a path leads to a file or a directory. -/
def contains (fs : FileSystem) (path : String) : Bool :=
  match fs.resolve path with
  | .ok _ => true
  | .error _ => false

def read (fs : FileSystem) (path : String) : Except AccessError (List UInt8) :=
  match fs.resolve path with
  | .error error => .error error
  | .ok place =>
      match fs.nodeAt place with
      | none => .error .notFound
      | some .directory => .error .isADirectory
      | some (.file content) => .ok content

end FileSystem

end CommandLine
