import ScriptLang.Host.Failure
import ScriptLang.Host.Path
import ScriptLang.Host.Sandbox
import ScriptLang.Host.Workspace

/-!
# Hosts

What a program may ask of its surroundings: files, the network, arguments, the environment and
leaving the program. A `Host` is a value; an operation that changes the surroundings gives the
changed host.

* `ForeignHost` is a host of which nothing is known but its answers. It may answer the same question
  differently at another moment, so an answer depends on how many questions were asked before.
  `PathRules` are how a host reads paths, `PathRules.posix` how hosts do that say nothing else.
* `Host.denied` refuses everything, `Host.sandbox` lives in memory and `Host.process` is a process
  with a directory tree. `Host.foreign` is any other host, given by its answers.
* `Host.leave` tells the three answers to a wish to leave apart (`Departure`).
* `Host.asked` is the host after a question that changes nothing.
* `Host.paths` are the rules by which a host reads paths.
-/

namespace ScriptLang

/-! ### Hosts of an embedder -/

/-- How a host reads paths. The rules of a host stay the same while a program runs. -/
structure PathRules where
  /-- Segments put together. -/
  join : List String → String
  /-- The path of the directory that holds a path. -/
  dirname : String → String
  /-- The last segment, without an ending that is not all of it. -/
  basename : String → Option String → String
  /-- The ending of the last segment. -/
  extname : String → String
  isAbsolute : String → Bool
  /-- Segments as one path. -/
  resolve : List String → String
  deriving Inhabited

/-- The rules of POSIX systems, from a working directory. -/
def PathRules.posix (cwd : String) : PathRules :=
  ⟨Path.join, Path.dirname, Path.basename, Path.extname, Path.isAbsolute, Path.resolve cwd⟩

/-- What a host answers to the wish to leave the program. -/
inductive LeaveAnswer where
  | refused (failure : HostFailure)
  /-- The program goes on. -/
  | noted
  /-- The program stops at once. -/
  | stopped
  deriving Inhabited

/-- A host by its answers. Each takes the moment, which is the number of questions asked before. -/
structure ForeignHost where
  moment : Nat := 0
  read : Nat → String → Except HostFailure String
  write : Nat → String → String → Except HostFailure Unit
  present : Nat → String → Bool
  list : Nat → String → Except HostFailure (List String)
  makeDirectory : Nat → String → Bool → Except HostFailure Unit
  removeFile : Nat → String → Except HostFailure Unit
  removeDirectory : Nat → String → Bool → Except HostFailure Unit
  fetch : Nat → WebRequest → Except HostFailure WebResponse
  arguments : Nat → List String
  environment : Nat → List (String × String)
  environmentValue : Nat → String → Option String
  leave : Nat → Int → LeaveAnswer
  cwd : String
  paths : PathRules

/-- The host at the next moment. -/
def ForeignHost.next (h : ForeignHost) : ForeignHost := { h with moment := h.moment + 1 }

/-! ### Hosts -/

/-- The surroundings of a program. -/
inductive Host where
  | denied
  | sandbox (s : Sandbox)
  | process (w : Workspace)
  | foreign (f : ForeignHost)
  deriving Inhabited

/-- The answer to a wish to leave the program. -/
inductive Departure where
  | refused (failure : HostFailure)
  /-- The code is recorded and the program goes on. -/
  | noted (host : Host)
  /-- The program stops at once. -/
  | stopped

namespace Host

/-- The failure of a host without files. -/
def noFiles : HostFailure := .unsupported "filesystem access"

/-- The failure of a host without network. -/
def noNetwork : HostFailure := .unsupported "network access"

/-- The failure of a host that cannot be left. -/
def noExit : HostFailure := .unsupported "process exit"

/-- The answer of the system as that of a host. -/
def ofSystem {α : Type} (r : Except SystemFault α) : Except HostFailure α :=
  r.mapError fun f => .io f.message

/-- The contents of a file. -/
def read : Host → String → Except HostFailure String
  | denied, _ => .error noFiles
  | sandbox s, path => s.read path
  | process w, path => ofSystem (w.read path)
  | foreign f, path => f.read f.moment path

/-- Writes a file. -/
def write : Host → String → String → Except HostFailure Host
  | denied, _, _ => .error noFiles
  | sandbox s, path, text => .ok (sandbox (s.write path text))
  | process w, path, text => (ofSystem (w.write path text)).map process
  | foreign f, path, text => (f.write f.moment path text).map fun _ => foreign f.next

/-- Whether a file or directory exists. -/
def present : Host → String → Bool
  | denied, _ => false
  | sandbox s, path => s.present path
  | process w, path => w.present path
  | foreign f, path => f.present f.moment path

/-- The names in a directory. -/
def list : Host → String → Except HostFailure (List String)
  | denied, _ => .error noFiles
  | sandbox s, path => s.list path
  | process w, path => ofSystem (w.list path)
  | foreign f, path => f.list f.moment path

/-- Makes a directory, with those around it if `recursive`. -/
def makeDirectory : Host → String → Bool → Except HostFailure Host
  | denied, _, _ => .error noFiles
  | sandbox s, path, recursive => (s.makeDirectory path recursive).map sandbox
  | process w, path, true => (ofSystem (w.makeDirectories path)).map process
  | process w, path, false => (ofSystem (w.makeDirectory path)).map process
  | foreign f, path, recursive =>
    (f.makeDirectory f.moment path recursive).map fun _ => foreign f.next

/-- Removes a file. -/
def removeFile : Host → String → Except HostFailure Host
  | denied, _ => .error noFiles
  | sandbox s, path => (s.removeFile path).map sandbox
  | process w, path => (ofSystem (w.removeFile path)).map process
  | foreign f, path => (f.removeFile f.moment path).map fun _ => foreign f.next

/-- Removes a directory, with all that is below it if `recursive`. -/
def removeDirectory : Host → String → Bool → Except HostFailure Host
  | denied, _, _ => .error noFiles
  | sandbox s, path, recursive => (s.removeDirectory path recursive).map sandbox
  | process w, path, true => (ofSystem (w.removeTree path)).map process
  | process w, path, false => (ofSystem (w.removeDirectory path)).map process
  | foreign f, path, recursive =>
    (f.removeDirectory f.moment path recursive).map fun _ => foreign f.next

/-- Sends a request over the network. -/
def fetch : Host → WebRequest → Except HostFailure WebResponse × Host
  | sandbox s, r =>
    let (answer, s) := s.fetch r
    (answer, sandbox s)
  | foreign f, r => (f.fetch f.moment r, foreign f.next)
  | h, _ => (.error noNetwork, h)

/-- The arguments of the program. -/
def arguments : Host → List String
  | denied => []
  | sandbox s => s.arguments
  | process w => w.arguments
  | foreign f => f.arguments f.moment

/-- The variables of the environment; those of a process are sorted by their names. -/
def environment : Host → List (String × String)
  | denied => []
  | sandbox s => s.environment
  | process w => w.environment.mergeSort fun a b => a.1 ≤ b.1
  | foreign f => f.environment f.moment

/-- The value of a variable of the environment. -/
def environmentValue : Host → String → Option String
  | foreign f, name => f.environmentValue f.moment name
  | h, name => (h.environment.find? (·.1 == name)).map (·.2)

/-- The working directory. -/
def cwd : Host → String
  | denied => "/"
  | sandbox s => s.cwd
  | process w => w.cwd
  | foreign f => f.cwd

/-- Leaves the program with a code. -/
def leave : Host → Int → Departure
  | denied, _ => .refused noExit
  | sandbox s, code => .noted (sandbox { s with exitCode := some code })
  | process _, _ => .stopped
  | foreign f, code =>
    match f.leave f.moment code with
    | .refused failure => .refused failure
    | .noted => .noted (foreign f.next)
    | .stopped => .stopped

/-- The host after a question that changes nothing else. -/
def asked : Host → Host
  | foreign f => foreign f.next
  | h => h

/-- How paths are read. -/
def paths : Host → PathRules
  | foreign f => f.paths
  | h => .posix h.cwd

/-- Path segments as one absolute path. -/
def resolve (h : Host) (parts : List String) : String := h.paths.resolve parts

end Host

end ScriptLang
