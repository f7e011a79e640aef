import ScriptLang.Host.Failure
import ScriptLang.Host.Path
import ScriptLang.Value.OrderedMap

/-!
# The workspace of a process

A directory tree as a process of a POSIX system sees it. Paths are relative to a working directory
and are followed segment by segment, so that a missing directory, a file in the place of a directory
and a directory in the place of a file are told apart.

* `Workspace.find` follows a path; a `Fault` says why it leads nowhere.
* Leaving the program stops it at once with the code's last eight bits (`Workspace.exitStatus`).
-/

namespace ScriptLang

/-- Why the system refuses a file operation. -/
inductive SystemFault where
  | missing
  | exists
  | notDirectory
  | isDirectory
  | notEmpty
  | invalid
  deriving DecidableEq, Repr

/-- The system's wording, with its number. -/
def SystemFault.message : SystemFault → String
  | .missing => "No such file or directory (os error 2)"
  | .exists => "File exists (os error 17)"
  | .notDirectory => "Not a directory (os error 20)"
  | .isDirectory => "Is a directory (os error 21)"
  | .invalid => "Invalid argument (os error 22)"
  | .notEmpty => "Directory not empty (os error 39)"

/-- What stands at a path. -/
inductive Node where
  | file (text : String)
  | directory
  deriving DecidableEq, Repr

/-- A directory tree with a process in it. Paths in the tables are absolute and normal. -/
structure Workspace where
  files : OrderedMap String := .empty
  /-- The directories, without the root. -/
  directories : List String := []
  arguments : List String := []
  environment : List (String × String) := []
  cwd : String := "/"
  deriving Inhabited

namespace Workspace

/-- A path of segments. -/
def ofSegments (names : List String) : String := "/" ++ String.intercalate "/" names

/-- What stands at a path of segments. -/
def node? (w : Workspace) (names : List String) : Option Node :=
  let path := ofSegments names
  if names.isEmpty || w.directories.contains path then some .directory
  else (w.files.get? path).map .file

/-- Follows segments from a directory, `done` being the segments of that directory from the last
one. Every segment but the last must name a directory. -/
def follow (w : Workspace) : List String → List String → Except SystemFault (List String)
  | done, [] => .ok done.reverse
  | done, name :: rest =>
    if name = "." then follow w done rest
    else if name = ".." then follow w (done.drop 1) rest
    else
      let here := name :: done
      if rest.isEmpty then .ok here.reverse
      else
        match w.node? here.reverse with
        | some .directory => follow w here rest
        | some (.file _) => .error .notDirectory
        | none => .error .missing

/-- The segments of a text, without empty ones. -/
def names (path : String) : List String :=
  (Pieces.splitText '/' path).filter fun p => !p.isEmpty

/-- Whether a path ends in a slash, and so can only be a directory. -/
def endsInSlash (path : String) : Bool := path.toList.getLast? == some '/'

/-- The place that a path leads to, whether or not something stands there. -/
def locate (w : Workspace) (path : String) : Except SystemFault (List String) :=
  if path.isEmpty then .error .missing
  else
    let start := if Path.isAbsolute path then [] else (names w.cwd).reverse
    w.follow start (names path)

/-- What stands at a path, with its place. -/
def find (w : Workspace) (path : String) : Except SystemFault (List String × Node) := do
  let place ← w.locate path
  match w.node? place with
  | none => throw .missing
  | some (.file text) =>
    if endsInSlash path then throw .notDirectory else return (place, .file text)
  | some .directory => return (place, .directory)

/-- The contents of a file. -/
def read (w : Workspace) (path : String) : Except SystemFault String := do
  match ← w.find path with
  | (_, .file text) => return text
  | (_, .directory) => throw .isDirectory

/-- Whether the directory around a place exists. -/
def parentExists (w : Workspace) (place : List String) : Bool :=
  w.node? place.dropLast == some .directory

/-- Writes a file. -/
def write (w : Workspace) (path text : String) : Except SystemFault Workspace := do
  let place ← w.locate path
  match w.node? place with
  | some .directory => throw .isDirectory
  | some (.file _) => if endsInSlash path then throw .notDirectory
  | none => if endsInSlash path then throw .isDirectory
  return { w with files := w.files.insert (ofSegments place) text }

/-- Whether something stands at a path. -/
def present (w : Workspace) (path : String) : Bool := (w.find path).isOk

/-- The places directly in a directory. -/
def children (w : Workspace) (place : List String) : List String :=
  let lead := if place.isEmpty then "/" else ofSegments place ++ "/"
  (w.files.keys ++ w.directories).filterMap fun p =>
    if lead.toList.isPrefixOf p.toList then
      let rest := p.toList.drop lead.length
      if rest.isEmpty || rest.contains '/' then none else some (String.ofList rest)
    else none

/-- The names in a directory, in order. -/
def list (w : Workspace) (path : String) : Except SystemFault (List String) := do
  match ← w.find path with
  | (_, .file _) => throw .notDirectory
  | (place, .directory) =>
    return (w.children place).mergeSort fun a b => !(decide (b < a))

/-- Makes a directory. -/
def makeDirectory (w : Workspace) (path : String) : Except SystemFault Workspace := do
  let place ← w.locate path
  if (w.node? place).isSome then throw .exists
  return { w with directories := w.directories ++ [ofSegments place] }

/-- Makes directories for the segments of a path that do not exist, from a directory on. -/
def makeAll (w : Workspace) : List String → List String → Except SystemFault Workspace
  | _, [] => .ok w
  | done, name :: rest =>
    if name = "." then makeAll w done rest
    else if name = ".." then makeAll w (done.drop 1) rest
    else
      let here := name :: done
      match w.node? here.reverse with
      | some .directory => makeAll w here rest
      | some (.file _) => .error (if rest.isEmpty then .exists else .notDirectory)
      | none =>
        makeAll { w with directories := w.directories ++ [ofSegments here.reverse] } here rest

/-- Makes a directory with all those around it. -/
def makeDirectories (w : Workspace) (path : String) : Except SystemFault Workspace :=
  if path.isEmpty then .ok w
  else w.makeAll (if Path.isAbsolute path then [] else (names w.cwd).reverse) (names path)

/-- Removes a file. -/
def removeFile (w : Workspace) (path : String) : Except SystemFault Workspace := do
  match ← w.find path with
  | (place, .file _) => return { w with files := w.files.erase (ofSegments place) }
  | (_, .directory) => throw .isDirectory

/-- The last segment of a path as it is written. -/
def lastName (path : String) : String := ((names path).getLast?).getD ""

/-- Removes an empty directory. -/
def removeDirectory (w : Workspace) (path : String) : Except SystemFault Workspace := do
  match ← w.find path with
  | (_, .file _) => throw .notDirectory
  | (place, .directory) =>
    if lastName path == "." then throw .invalid
    else if !(w.children place).isEmpty then throw .notEmpty
    else
      return { w with directories := w.directories.filter (· != ofSegments place) }

/-- Removes a directory with all that is below it. -/
def removeTree (w : Workspace) (path : String) : Except SystemFault Workspace := do
  match ← w.find path with
  | (_, .file _) => throw .notDirectory
  | (place, .directory) =>
    let top := ofSegments place
    let inside (p : String) : Bool := p == top || (top ++ "/").toList.isPrefixOf p.toList
    return { w with
      directories := w.directories.filter fun p => !inside p
      files := .ofList (w.files.toList.filter fun e => !inside e.1) }

/-- The status that a process ends with: the last eight bits of the code. -/
def exitStatus (code : Int) : Nat := (code % 256).toNat

end Workspace

end ScriptLang
