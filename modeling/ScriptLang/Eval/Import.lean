import ScriptLang.Eval.Call
import ScriptLang.Grammar.Program

/-!
# Imports

An import names a module of the library or a file, whose path is read from the directory of the
importing file, as it is or with the ending of program files.

* A file is run once, in a scope of its own below the global one; later imports of the same path
  share what it exports.
* A file that is imported again while it is being imported is an error
  (`RuntimeFault.circularImport`).
* `Eval.exportsOf` are the exported names of a file, or all its names if it exports none.
-/

namespace ScriptLang.Eval

/-- The ending of program files. -/
def sourceEnding : String := ".mimo"

/-- The functions and constants of a module of the library. -/
def standardMembers : StandardModule → List (String × Value)
  | .math => [("PI", .number 3.141592653589793), ("E", .number 2.718281828459045)]
  | _ => []

/-- Functions of the library as members of an object. -/
def builtinMembers : List Builtin → Eval (List (String × Value))
  | [] => pure []
  | f :: fs => do
    let id ← newIdentity
    return (f.name, .builtin id f) :: (← builtinMembers fs)

/-- The object of a module of the library. -/
def buildStandard (s : StandardModule) : Eval Value := do
  let fs ← builtinMembers s.functions
  newObject (.ofList (standardMembers s ++ fs))

/-- What an import gave before. -/
def cached? (key : String) : Eval (Option Value) :=
  look fun m => (m.modules.find? (·.1 == key)).map (·.2)

/-- Records what an import gives. -/
def remember (key : String) (v : Value) : Eval Unit := do
  change fun m => { m with modules := (key, v) :: m.modules }
  note (.recorded key)

/-- Ends an import with what it gives. -/
def give (key : String) (v : Value) : Eval Value := do
  note (.gave key v)
  return v

/-- Whether the host has something at a path that an import may mean. -/
def probe (path : String) : Eval Bool := do
  let found ← ask (·.present path)
  note (.probed path found)
  return found

/-- The places where candidates were looked for in a directory, up to the first that exists. -/
structure Search where
  /-- All places, in order. -/
  tried : List String
  /-- The last one, if it exists. -/
  found : Option String

/-- Looks for candidates in a directory, one after the other. -/
def search (directory : String) : List String → Eval Search
  | [] => return ⟨[], none⟩
  | candidate :: rest => do
    let place ← look (·.host.resolve [directory, candidate])
    if ← probe place then return ⟨[place], some place⟩
    else
      let others ← search directory rest
      return ⟨place :: others.tried, others.found⟩

/-- The path of the file that an import means. -/
def resolveImport (path : String) (loc : Location) : Eval String := do
  let directory ← look fun m => m.host.paths.dirname m.context.file
  let result ← search directory [path, path ++ sourceEnding]
  note (.sought loc path result.tried)
  match result.found with
  | some place => return place
  | none => fail (.moduleNotFound path result.tried) loc

/-- The values of declared names of a scope. -/
def exportedValues (t : Scopes) (id : ScopeId) (names : List String) : List (String × Value) :=
  names.map fun n => (n, .ofOption (t.lookup? n id))

/-- The exports of a file that ran in a scope. -/
def exportsOf (p : Program) (t : Scopes) (id : ScopeId) : OrderedMap Value :=
  if p.hasExports then
    .ofList (exportedValues t id
      ((p.statements.filter Stmt.isExported).flatMap Stmt.declaredNames))
  else .ofList (t.bindings id)

/-- Reads and runs a file in a scope of its own, and gives the program with that scope. -/
def runFile (ev : Evaluator) (path : String) (loc : Location) : Eval (Program × ScopeId) := do
  let source ← orFail (← ask (·.read path)) (fun e => .moduleUnreadable path e.message) loc
  change fun m => { m with sources := m.sources.add path source }
  match Program.ofSource source path with
  | .error d => raise d
  | .ok program =>
    let id ← newChildOf Scopes.root .moduleRoot
    inFile id path do
      let _ ← (← runStatements ev program.statements).atBoundary fun v => v
    return (program, id)

/-- Runs a file, and gives what it exports. -/
def runModule (ev : Evaluator) (path : String) (loc : Location) : Eval Value := do
  let (program, id) ← runFile ev path loc
  note (.completed path)
  let entries ← look fun m => exportsOf program m.scopes id
  newObject entries

/-- Imports a file that is neither recorded nor being imported. -/
def loadFile (ev : Evaluator) (path : String) (loc : Location) : Eval Value := do
  let v ← inImport path (runModule ev path loc)
  remember path v
  give path v

/-- Imports a file whose path is known. -/
def importResolved (ev : Evaluator) (resolved : String) (loc : Location) : Eval Value := do
  match ← cached? resolved with
  | some v => give resolved v
  | none =>
    let loading ← look (·.context.loading)
    if loading.contains resolved then fail (.circularImport loading.reverse resolved) loc
    else loadFile ev resolved loc

/-- Imports a file. -/
def importFile (ev : Evaluator) (path : String) (loc : Location) : Eval Value := do
  importResolved ev (← resolveImport path loc) loc

/-- Imports a module of the library. -/
def importStandard (s : StandardModule) : Eval Value := do
  match ← cached? s.name with
  | some v => give s.name v
  | none =>
    let v ← buildStandard s
    remember s.name v
    give s.name v

/-- What an import gives. -/
def importModule (ev : Evaluator) (path : String) (loc : Location) : Eval Value :=
  match StandardModule.ofName? path with
  | some s => importStandard s
  | none => importFile ev path loc

end ScriptLang.Eval
