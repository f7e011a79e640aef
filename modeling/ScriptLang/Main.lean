import ScriptLang.Command.Line
import Std.Time.DateTime.Timestamp

/-!
# The program

`main` reads the working directory and the environment, runs the command line on them and brings the
changes back. The command sees the working directory and what is below it, and the files outside
that its arguments name.
-/

namespace ScriptLang

/-- Adds what is below a directory. What is no text is left out. -/
partial def readTree (w : Workspace) (path : String) : IO Workspace := do
  let mut w := { w with directories := w.directories ++ [path] }
  let start ← IO.FS.realPath path
  for entry in ← start.readDir do
    let place := path ++ "/" ++ entry.fileName
    if ← entry.path.isDir then w ← readTree w place
    else
      try
        let text ← IO.FS.readFile entry.path
        w := { w with files := w.files.insert place text }
      catch _ => pure ()
  return w

/-- The directories around a path, from the root. -/
def around (path : String) : List String :=
  let names := Workspace.names path
  (List.range' 1 (names.length - 1)).map fun n => Workspace.ofSegments (names.take n)

/-- The variables of the environment, as the system lists them for a process. -/
def readEnvironment : IO (List (String × String)) := do
  try
    let text ← IO.FS.readFile "/proc/self/environ"
    return (Pieces.splitText '\x00' text).filterMap fun entry =>
      match Pieces.splitText '=' entry with
      | name :: value :: rest => some (name, "=".intercalate (value :: rest))
      | _ => none
  catch _ => return []

/-- The process as it is when the program starts. -/
def readWorkspace (args : List String) : IO Workspace := do
  let cwd := (← IO.currentDir).toString
  let mut w : Workspace := { cwd, environment := ← readEnvironment, directories := around cwd }
  w ← readTree w cwd
  for arg in args do
    let path := w.absolute arg
    if !w.present path then
      try
        let text ← IO.FS.readFile path
        let missing := (around path).filter fun d => !w.directories.contains d
        w := { w with files := w.files.insert path text, directories := w.directories ++ missing }
      catch _ => pure ()
  return w

/-- Brings the changes of a directory tree to the file system. -/
def writeChanges (before after : Workspace) : IO Unit := do
  for (path, _) in before.files.toList do
    if !after.files.contains path then IO.FS.removeFile path
  for path in before.directories.reverse do
    if !after.directories.contains path then IO.FS.removeDir path
  for path in after.directories do
    if !before.directories.contains path then IO.FS.createDirAll path
  for (path, text) in after.files.toList do
    if before.files.get? path != some text then IO.FS.writeFile path text

end ScriptLang

open ScriptLang in
/-- Runs the command line. -/
def main (args : List String) : IO UInt32 := do
  let workspace ← readWorkspace args
  let errors ← IO.getStderr
  let result := CommandLine.run
    { workspace
      terminal := ← errors.isTty
      random := (← IO.monoNanosNow) % 2147483646 + 1
      now := ⟨(← Std.Time.Timestamp.now).toMillisecondsSinceUnixEpoch.val⟩ }
    args
  writeChanges workspace result.workspace
  (← IO.getStdout).putStr result.output
  errors.putStr result.errors
  return result.status.toUInt32
