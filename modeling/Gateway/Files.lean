import Gateway.Bytes

/-! A tree of files, and paths through it. -/
namespace Gateway

inductive FileError where
  | notFound
  | permissionDenied
  | notADirectory
  | isADirectory
  | nameTooLong
  | nulByte
  | invalidUtf8
  deriving DecidableEq

def FileError.message : FileError → String
  | notFound => "No such file or directory (os error 2)"
  | permissionDenied => "Permission denied (os error 13)"
  | notADirectory => "Not a directory (os error 20)"
  | isADirectory => "Is a directory (os error 21)"
  | nameTooLong => "File name too long (os error 36)"
  | nulByte => "file name contained an unexpected NUL byte"
  | invalidUtf8 => "stream did not contain valid UTF-8"

inductive Node where
  /-- A file with its time of modification in seconds. -/
  | file (content : Bytes) (modified : Nat)
  /-- A file that can be executed. -/
  | program
  | directory
  deriving DecidableEq

/-- What there is, each by the names on the way from the root, and the working directory. A
directory is there when something is in it or when it is listed itself. -/
structure Files where
  entries : List (List Bytes × Node)
  here : List Bytes

namespace Files

/-- The names that a path is made of. -/
def components (path : Bytes) : List Bytes := (Bytes.splitOn 47 path).filter (!·.isEmpty)

def isAbsolute (path : Bytes) : Bool := path.head? == some 47

/-- Where a path starts: the names on the way to there, the last first. -/
def origin (fs : Files) (path : Bytes) : List Bytes :=
  if isAbsolute path then [] else fs.here.reverse

/-- Puts a node in place of what has the name. -/
def put (fs : Files) (path : Bytes) (node : Node) : Files :=
  let name := (fs.origin path).reverse ++ components path
  { fs with entries := fs.entries.filter (·.1 != name) ++ [(name, node)] }

/-- What is found under a list of names, none of which is a dot. -/
def at? (fs : Files) (name : List Bytes) : Option Node :=
  match fs.entries.find? (·.1 == name) with
  | some (_, node) => some node
  | none =>
    if name.isEmpty || fs.here == name || fs.entries.any (name.isPrefixOf ·.1) then some .directory
    else none

/-- The longest name of one file. -/
def maxNameLength : Nat := 255

/-- Follows names from a directory, which is given by the names on the way to it, the last first;
above the root is the root. -/
def walk (fs : Files) : List Bytes → List Bytes → Except FileError Node
  | here, [] => match fs.at? here.reverse with
    | some node => .ok node
    | none => .error .notFound
  | here, name :: rest =>
    match fs.at? here.reverse with
    | none => .error .notFound
    | some .directory =>
      if name == [46] then walk fs here rest
      else if name == [46, 46] then walk fs here.tail rest
      else if maxNameLength < name.length then .error .nameTooLong
      else walk fs (name :: here) rest
    | some _ => .error .notADirectory

/-- What a path leads to. A slash at the end asks for a directory. -/
def lookup (fs : Files) (path : Bytes) : Except FileError Node :=
  if path.isEmpty then .error .notFound
  else if path.contains 0 then .error .nulByte
  else do
    let node ← fs.walk (fs.origin path) (components path)
    if node != .directory && path.getLast? == some 47 then .error .notADirectory else .ok node

/-- The content of a file. -/
def read (fs : Files) (path : Bytes) : Except FileError Bytes := do
  match ← fs.lookup path with
  | .file content _ => .ok content
  | .program => .ok []
  | .directory => .error .isADirectory

/-- The same files seen from another working directory, relative to this one. -/
def moveTo (fs : Files) (path : Bytes) : Files :=
  let step (at_ : List Bytes) (name : Bytes) : List Bytes :=
    if name == [46] then at_ else if name == [46, 46] then at_.tail else name :: at_
  { fs with here := ((components path).foldl step (fs.origin path)).reverse }

end Files

end Gateway
