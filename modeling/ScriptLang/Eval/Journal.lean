import ScriptLang.Diagnostic.Ghost
import ScriptLang.Source.Span
import ScriptLang.Value.Basic

/-!
# Journals

What a run has been through, for reasoning about it. A program carries no journal: it is a `Ghost`.

* An `Activity` is something under way: the statements of a file, or a call.
* An `Event` is something that happened, and a `JournalEntry` says where it did: the current file,
  the activities, and what was known of imports.
-/

namespace ScriptLang

/-- Something under way. -/
inductive Activity where
  /-- The statements of a file. -/
  | file (path : String)
  /-- A call of a function of the program. -/
  | call (function : String)
  deriving DecidableEq, Repr

/-- Something that happened. -/
inductive Event where
  /-- An import asked the host whether there is something at a path. -/
  | probed (path : String) (found : Bool)
  /-- An import statement looked for a file in these places, one after the other. -/
  | sought (location : Location) (path : String) (tried : List String)
  /-- The import of a file began. -/
  | began (path : String)
  /-- The statements of an imported file ran to their end. -/
  | completed (path : String)
  /-- The import of a file ended, with or without success. -/
  | ended (path : String)
  /-- What an import gives was recorded under a name or path. -/
  | recorded (key : String)
  /-- An import succeeded, of the name of a library module or of a file. -/
  | gave (key : String) (v : Value)

/-- An event, and where it happened. -/
structure JournalEntry where
  event : Event
  /-- The current file. -/
  file : String
  /-- What was under way, the innermost first. -/
  within : List Activity
  /-- The files being imported, the innermost first. -/
  loading : List String
  /-- The names and paths whose import is recorded, the latest first. -/
  recorded : List String

end ScriptLang
