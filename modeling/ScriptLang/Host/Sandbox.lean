import ScriptLang.Host.Failure
import ScriptLang.Host.Path
import ScriptLang.Value.OrderedMap

/-!
# The sandbox

A host that lives in memory. Files and directories are tables of paths, which are compared as texts;
requests over the network are recorded and answered by fixed rules; leaving the program is recorded
and does not stop it.

* Writing a file makes no directory, and a file may stand in a directory that does not exist.
* `Sandbox.list` names the first segments below a directory.
-/

namespace ScriptLang

/-- A host in memory. -/
structure Sandbox where
  files : OrderedMap String := .empty
  directories : List String := ["/", "/work"]
  arguments : List String := []
  environment : List (String × String) := []
  cwd : String := "/work"
  /-- The requests made, in order. -/
  requests : List WebRequest := []
  /-- The last code that the program was left with. -/
  exitCode : Option Int := none
  deriving Inhabited

namespace Sandbox

/-- The failure of a path that is not there. -/
def missing (path : String) : HostFailure := .io s!"no such file or directory: {path}"

/-- Texts in the order of their code points, each once. -/
def sortedDistinct (xs : List String) : List String :=
  xs.eraseDups.mergeSort fun a b => !(decide (b < a))

/-- Whether a text starts with another. -/
def startsWith (lead s : String) : Bool := lead.toList.isPrefixOf s.toList

/-- A directory's path with one slash at its end. -/
def under (path : String) : String :=
  if path.toList.getLast? == some '/' then path else path ++ "/"

/-- What stands between a directory's path and the next slash of a path below it. -/
def childName (directory path : String) : Option String :=
  let lead := (under directory).toList
  let cs := path.toList
  if lead.isPrefixOf cs then
    let name := (cs.drop lead.length).takeWhile (· != '/')
    if name.isEmpty then none else some (String.ofList name)
  else none

/-- The names in a directory. -/
def entries (s : Sandbox) (directory : String) : List String :=
  sortedDistinct ((s.files.keys ++ s.directories).filterMap (childName directory))

/-- Whether a directory exists. -/
def isDirectory (s : Sandbox) (path : String) : Bool := s.directories.contains path

/-- The contents of a file. -/
def read (s : Sandbox) (path : String) : Except HostFailure String :=
  match s.files.get? path with
  | some text => .ok text
  | none => .error (missing path)

/-- Writes a file. -/
def write (s : Sandbox) (path text : String) : Sandbox :=
  { s with files := s.files.insert path text }

/-- Whether a file or directory exists. -/
def present (s : Sandbox) (path : String) : Bool := s.files.contains path || s.isDirectory path

/-- The names in a directory, if it exists. -/
def list (s : Sandbox) (path : String) : Except HostFailure (List String) :=
  if s.isDirectory path then .ok (s.entries path) else .error (missing path)

/-- The paths of a directory and of those around it, without the root. -/
def ancestors (path : String) : List String :=
  let names := (Pieces.splitText '/' path).filter fun p => !p.isEmpty
  (names.foldl (fun (acc : String × List String) n =>
    let p := acc.1 ++ "/" ++ n
    (p, p :: acc.2)) ("", [])).2.reverse

/-- Makes a directory, with those around it. -/
def makeDirectory (s : Sandbox) (path : String) (recursive : Bool) : Except HostFailure Sandbox :=
  let parent := Path.dirname path
  if !recursive && !s.isDirectory parent then .error (missing parent)
  else
    let new := (ancestors path).filter fun p => !s.isDirectory p
    .ok { s with directories := s.directories ++ new }

/-- Removes a file. -/
def removeFile (s : Sandbox) (path : String) : Except HostFailure Sandbox :=
  if s.files.contains path then .ok { s with files := s.files.erase path }
  else .error (missing path)

/-- Removes a directory, with all that is below it if `recursive`. -/
def removeDirectory (s : Sandbox) (path : String) (recursive : Bool) :
    Except HostFailure Sandbox :=
  if !s.isDirectory path then .error (missing path)
  else if !recursive && !(s.entries path).isEmpty then
    .error (.io s!"directory not empty: {path}")
  else
    let below (p : String) : Bool := startsWith (path ++ "/") p
    .ok { s with
      directories := s.directories.filter fun p => !(p == path || below p)
      files := .ofList (s.files.toList.filter fun e => !below e.1) }

/-- Whether a text contains another. -/
def mentions (needle : List Char) : List Char → Bool
  | [] => needle.isEmpty
  | c :: cs => needle.isPrefixOf (c :: cs) || mentions needle cs

/-- Answers a request and records it. -/
def fetch (s : Sandbox) (r : WebRequest) : Except HostFailure WebResponse × Sandbox :=
  let url := r.url.toList
  let answer : Except HostFailure WebResponse :=
    if mentions "unreachable".toList url then .error (.network "connection refused")
    else .ok ⟨if mentions "missing".toList url then 404 else 200, r.body.getD r.url⟩
  (answer, { s with requests := s.requests ++ [r] })

end Sandbox

end ScriptLang
