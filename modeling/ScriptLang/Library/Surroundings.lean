import ScriptLang.Library.Argument

/-!
# The modules `env`, `fs`, `http` and `path`

Functions that ask the host: for variables of the environment, for files, for requests over the
network and for its working directory. A failure of the host becomes an error whose code names the
operation.
-/

namespace ScriptLang

namespace SurroundingsReport

/-- An argument is no text. -/
def needsText (function : String) (position : Nat) (got : Value) (advice : String) : Report :=
  .wrongType s!"{function}() expects a string as argument {position}. Got '{got.typeName}'."
    advice

/-- A path is no text. -/
def pathType (function : String) (got : Value) : Report :=
  .wrongType s!"{function}() expects a string path as argument 1. Got '{got.typeName}'."
    "Provide a string path (e.g., \"./my_file.txt\")."

/-- What is to be written is no text. -/
def contentType : Report :=
  .wrongType "fs.write_file() expects string content as its second argument."
    "Provide the string content to write to the file."

/-- The body of a request is no text. -/
def bodyType : Report :=
  .wrongType "http.post() body must be a string. Use json.stringify(data) first."

/-- The headers of a request are no object. -/
def headersType : Report := .wrongType "http.post() expects an object as argument 3."

end SurroundingsReport

namespace EnvFn

open Eval Argument

/-- The name of a variable. -/
def nameArg (function : String) (v : Value) (loc : Location) : Eval String :=
  match v with
  | .string s => pure s
  | v =>
    refuse (SurroundingsReport.needsText function 1 v
      "Provide an environment variable name as a string.") loc

/-- The result of a function. -/
def run (f : EnvFn) (args : List Value) (loc : Location) : Eval Value :=
  match f with
  | .get => do
    let name ← nameArg "env.get" (nth args 1) loc
    match ← ask (·.environmentValue name) with
    | some text => return .string text
    | none => return nth args 2
  | .has => do
    let name ← nameArg "env.has" (nth args 1) loc
    return .bool (← ask (·.environmentValue name)).isSome
  | .everything => do
    let all ← ask (·.environment)
    newObject (.ofList (all.map fun e => (e.1, .string e.2)))

end EnvFn

namespace FilesFn

open Eval Argument

/-- An operation on a path: what it does in words, its code and what to do when it fails. -/
structure Operation where
  function : String
  code : String
  action : String
  advice : String

/-- Reading a file. -/
def reading : Operation :=
  ⟨"fs.read_file", "FS001", "read file",
    "Ensure the file exists and you have read permissions."⟩

/-- Writing a file. -/
def writing : Operation :=
  ⟨"fs.write_file", "FS002", "write to file",
    "Ensure you have write permissions for the directory."⟩

/-- Listing a directory. -/
def listing : Operation :=
  ⟨"fs.list_dir", "FS003", "list directory",
    "Ensure the path is a directory and you have read permissions."⟩

/-- Making a directory. -/
def making : Operation :=
  ⟨"fs.make_dir", "FS004", "create directory",
    "Ensure the parent directory exists and you have write permissions."⟩

/-- Removing a file. -/
def removingFile : Operation :=
  ⟨"fs.remove_file", "FS005", "remove file",
    "Ensure the file exists and you have write permissions."⟩

/-- Removing a directory. -/
def removingDirectory : Operation :=
  ⟨"fs.remove_dir", "FS006", "remove directory",
    "Ensure the directory exists and you have write permissions. "
      ++ "Use the recursive option for non-empty directories."⟩

/-- What is said when an operation fails. -/
def Operation.failed (op : Operation) (path : String) (f : HostFailure) : Report :=
  ⟨op.code, s!"Failed to {op.action} '{path}': {f.message}", op.advice⟩

/-- The path that a function works on. -/
def pathArg (function : String) (v : Value) (loc : Location) : Eval String :=
  match v with
  | .string s => pure s
  | v => refuse (SurroundingsReport.pathType function v) loc

/-- The answer of the host to an operation, or its error. -/
def answer {α : Type} (op : Operation) (path : String) (x : Except HostFailure α)
    (loc : Location) : Eval α :=
  match x with
  | .ok a => pure a
  | .error f => refuse (op.failed path f) loc

/-- Carries an operation out that changes the host. -/
def alter (op : Operation) (path : String) (f : Host → Except HostFailure Host) (loc : Location) :
    Eval Unit := do
  answer op path (← act f) loc

/-- Whether the second argument asks for all that is below a directory: only true does. -/
def recursive (args : List Value) : Bool :=
  match nth args 2 with
  | .bool b => b
  | _ => false

/-- The result of a function. -/
def run (f : FilesFn) (args : List Value) (loc : Location) : Eval Value := do
  let a := nth args 1
  match f with
  | .readFile =>
    let path ← pathArg reading.function a loc
    return .string (← answer reading path (← ask (·.read path)) loc)
  | .writeFile =>
    let path ← pathArg writing.function a loc
    match nth args 2 with
    | .string text =>
      alter writing path (·.write path text) loc
      return .null
    | _ => refuse SurroundingsReport.contentType loc
  | .present =>
    let path ← pathArg "fs.exists" a loc
    return .bool (← ask (·.present path))
  | .listDir =>
    let path ← pathArg listing.function a loc
    newList ((← answer listing path (← ask (·.list path)) loc).map .string)
  | .makeDir =>
    let path ← pathArg making.function a loc
    alter making path (·.makeDirectory path (recursive args)) loc
    return .bool true
  | .removeFile =>
    let path ← pathArg removingFile.function a loc
    alter removingFile path (·.removeFile path) loc
    return .bool true
  | .removeDir =>
    let path ← pathArg removingDirectory.function a loc
    alter removingDirectory path (·.removeDirectory path (recursive args)) loc
    return .bool true

end FilesFn

namespace HttpFn

open Eval Argument

/-- The address of a request. -/
def urlArg (function : String) (v : Value) (loc : Location) : Eval String :=
  match v with
  | .string s => pure s
  | v => refuse (SurroundingsReport.needsText function 1 v "Provide a URL string.") loc

/-- Has the host send a request. -/
def exchange (r : WebRequest) : Eval (Except HostFailure WebResponse) := fun m =>
  let (answer, host) := m.host.fetch r
  .ok answer { m with host := host }

/-- Sends a request and makes an object of the answer. -/
def send (r : WebRequest) (code : String) (loc : Location) : Eval Value := do
  match ← exchange r with
  | .ok response =>
    newObject (.ofList [("status", .ofNat response.status), ("body", .string response.body)])
  | .error f => refuse ⟨code, s!"HTTP {r.method} request failed: {f.message}", ""⟩ loc

/-- Headers with one more, which takes the place of one of the same name and goes to the end. -/
def withHeader (headers : List (String × String)) (name text : String) :
    List (String × String) :=
  headers.filter (·.1 != name) ++ [(name, text)]

/-- The header of a request with a body. -/
def defaultHeaders : List (String × String) := [("Content-Type", "application/json")]

/-- The headers that an argument adds. -/
def headersOf (extra : Option Value) (loc : Location) : Eval (List (String × String)) :=
  match extra with
  | none => pure defaultHeaders
  | some (.object r) =>
    lookHeap fun h =>
      (h.object r).toList.foldl (fun hs e => withHeader hs e.1 (h.print e.2)) defaultHeaders
  | some _ => refuse SurroundingsReport.headersType loc

/-- The result of a function. -/
def run (f : HttpFn) (args : List Value) (loc : Location) : Eval Value := do
  let a := nth args 1
  match f with
  | .get =>
    let url ← urlArg "http.get" a loc
    send ⟨"GET", url, [], none⟩ "HTTP001" loc
  | .post =>
    let url ← urlArg "http.post" a loc
    match nth args 2 with
    | .string body =>
      let headers ← headersOf (given? args 3) loc
      send ⟨"POST", url, headers, some body⟩ "HTTP002" loc
    | _ => refuse SurroundingsReport.bodyType loc

end HttpFn

namespace PathFn

open Eval Argument

/-- A path argument. -/
def pathArg (function : String) (v : Value) (position : Nat) (loc : Location) : Eval String :=
  match v with
  | .string s => pure s
  | v =>
    refuse (SurroundingsReport.needsText function position v "Provide a string path value.") loc

/-- Path arguments, from a position on. -/
def pathArgs (function : String) (loc : Location) : Nat → List Value → Eval (List String)
  | _, [] => pure []
  | position, v :: rest => do
    let s ← pathArg function v position loc
    return s :: (← pathArgs function loc (position + 1) rest)

/-- The result of a function. -/
def run (f : PathFn) (args : List Value) (loc : Location) : Eval Value := do
  let a := nth args 1
  match f with
  | .join =>
    let parts ← pathArgs "path.join" loc 1 args
    look fun m => .string (m.host.paths.join parts)
  | .dirname =>
    let path ← pathArg "path.dirname" a 1 loc
    look fun m => .string (m.host.paths.dirname path)
  | .basename =>
    let path ← pathArg "path.basename" a 1 loc
    match given? args 2 with
    | none => look fun m => .string (m.host.paths.basename path none)
    | some v =>
      let ending ← pathArg "path.basename" v 2 loc
      look fun m => .string (m.host.paths.basename path (some ending))
  | .extname =>
    let path ← pathArg "path.extname" a 1 loc
    look fun m => .string (m.host.paths.extname path)
  | .resolve =>
    let parts ← pathArgs "path.resolve" loc 1 args
    look fun m => .string (m.host.resolve parts)
  | .isAbsolute =>
    let path ← pathArg "path.is_absolute" a 1 loc
    look fun m => .bool (m.host.paths.isAbsolute path)

end PathFn

end ScriptLang
