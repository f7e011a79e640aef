import ScriptLang.Diagnostic.Nearest
import ScriptLang.Diagnostic.Basic
import ScriptLang.Tree.Operator
import ScriptLang.Value.Scope

/-!
# Faults of running programs

What can go wrong while a program runs, with code, wording and advice of each fault in one place.

* A `Report` is what a fault says; `Report.toDiagnostic` places it.
* `RuntimeFault` are the faults of the language itself. Those of the library stand with its
  functions.
-/

namespace ScriptLang

/-- What an error says: code, message and advice (empty when there is none). -/
structure Report where
  code : String
  message : String
  advice : String := ""
  deriving DecidableEq, Repr, Inhabited

/-- A report as a located error. -/
def Report.toDiagnostic (r : Report) (loc : Location) : Diagnostic :=
  { category := .runtime, code := r.code, message := r.message, location := loc : Diagnostic
    }.withSuggestion r.advice

/-- Why a program fails. -/
inductive RuntimeFault where
  /-- An operand of an arithmetic operator or comparison is no number. -/
  | operandTypes (op : BinaryOp) (left right : String)
  | divisionByZero
  | remainderByZero
  | negatedType (type : String)
  | spreadNonArray (type : String)
  | spreadNonObject (type : String)
  /-- A spread argument of a call is no array. -/
  | spreadArgument
  | arrayIndexType (type : String)
  | stringIndexType (type : String)
  | notIndexable (type : String)
  | propertyOfNull (name : String)
  | propertyOfScalar (name type : String)
  | propertyTarget (name type : String)
  /-- The index of an element write is no whole number. -/
  | writeIndexType (type : String)
  | negativeIndex (index : Int)
  | indexTooLarge (index : Nat)
  | writeTarget (type : String)
  | destructureNonArray
  | destructureNonObject
  | undefined (name : String) (nearest : Option String)
  | alreadyDeclared (name : String)
  | constantAssigned (name : String)
  | notCallable (name : String)
  | tooFewArguments (name : String) (required got : Nat)
  | tooManyArguments (name : String) (most got : Nat)
  /-- A library function got a number of arguments that it does not take. -/
  | builtinArguments (name : String) (arity : Arity) (got : Nat)
  | callDepth (limit : Nat)
  | loopOverNonArray (type : String)
  /-- The body of a guard ran to its end. -/
  | guardFallsThrough
  /-- A word that jumps met no loop of its label. -/
  | strayJump (word : String) (label : Option String)
  /-- No case of a match applies. -/
  | noCase (printed : String)
  /-- The program raised this itself. -/
  | raised (message : String)
  /-- The module of a member call is no object. -/
  | moduleType (module : String)
  | memberMissing (name module : String) (available : List String) (nearest : Option String)
  | moduleNotFound (path : String) (tried : List String)
  | importNameTaken (name : String)
  | circularImport (chain : List String) (path : String)
  | moduleUnreadable (path reason : String)
  /-- A result would be longer than a collection may be; `length` is its text. -/
  | resultTooLarge (function length : String)
  /-- An object was written to while it was being printed as its own key. -/
  | writeWhileRead
  /-- Values were found to have no order while they were sorted. -/
  | withoutOrder
  deriving Repr

namespace RuntimeFault

/-- The code of a fault. -/
def code : RuntimeFault → String
  | operandTypes .. | negatedType _ | spreadNonArray _ | spreadNonObject _ | spreadArgument
  | arrayIndexType _ | stringIndexType _ | writeIndexType _ | loopOverNonArray _ => "TYPE001"
  | notIndexable _ | propertyOfScalar .. | writeTarget _ | destructureNonArray
  | destructureNonObject | notCallable _ | moduleType _ => "TYPE002"
  | propertyTarget .. => "TYPE004"
  | divisionByZero | remainderByZero => "MATH001"
  | propertyOfNull _ => "REF001"
  | undefined .. => "REF002"
  | negativeIndex _ | indexTooLarge _ => "INDEX001"
  | alreadyDeclared _ => "DECL001"
  | constantAssigned _ => "CONST001"
  | tooFewArguments .. => "FUNC001"
  | tooManyArguments .. => "FUNC002"
  | builtinArguments .. => "BUILTIN001"
  | callDepth _ => "STACK001"
  | guardFallsThrough => "CTRL001"
  | strayJump .. => "CTRL002"
  | noCase _ => "MATCH001"
  | raised _ => "USER001"
  | moduleNotFound .. | importNameTaken _ => "MOD001"
  | memberMissing .. => "MOD002"
  | circularImport .. => "MOD003"
  | moduleUnreadable .. => "MOD004"
  | resultTooLarge .. => "ARG001"
  | writeWhileRead | withoutOrder => "INT001"

/-- The message of a fault. -/
def message : RuntimeFault → String
  | operandTypes op l r => s!"Operator '{op.symbol}' expects numbers. Got '{l}' and '{r}'."
  | divisionByZero => "Division by zero is not allowed."
  | remainderByZero => "Modulo by zero is not allowed."
  | negatedType t => s!"Unary minus expects a number. Got '{t}'."
  | spreadNonArray t => s!"Cannot spread non-array value of type '{t}'."
  | spreadNonObject t => s!"Cannot spread non-object value of type '{t}'."
  | spreadArgument => "Cannot spread non-array value in function call."
  | arrayIndexType t => s!"Array index must be an integer. Got type '{t}'."
  | stringIndexType t => s!"String index must be an integer. Got type '{t}'."
  | notIndexable t =>
    s!"Cannot access property on value of type '{t}'. "
      ++ "Only arrays, objects, and strings can be indexed."
  | propertyOfNull p => s!"Cannot access property '{p}' of 'null'."
  | propertyOfScalar p t => s!"Cannot access property '{p}' of non-object value of type '{t}'."
  | propertyTarget p t => s!"Cannot set property '{p}' on a non-object value (got {t})."
  | writeIndexType t => s!"Array index for assignment must be an integer. Got '{t}'."
  | negativeIndex i => s!"Array index cannot be negative. Got {i}."
  | indexTooLarge i =>
    s!"Array index {i} is too large. Arrays hold at most {maxCollectionLength} elements."
  | writeTarget t => s!"Cannot set property on value of type '{t}'."
  | destructureNonArray => "Cannot destructure non-array value into an array pattern."
  | destructureNonObject => "Cannot destructure non-object value into an object pattern."
  | undefined n _ => s!"Undefined variable: {n}"
  | alreadyDeclared n => s!"Variable '{n}' is already declared in this scope"
  | constantAssigned n => s!"Cannot assign to const variable '{n}'"
  | notCallable n => s!"'{n}' is not a callable function."
  | tooFewArguments n required got =>
    s!"Function '{n}' expects at least {required} arguments but received {got}."
  | tooManyArguments n most got =>
    s!"Function '{n}' expects at most {most} arguments but received {got}."
  | builtinArguments n arity got =>
    s!"Built-in function '{n}' expects {arity.describe} arguments but received {got}."
  | callDepth limit => s!"Maximum call depth of {limit} exceeded."
  | loopOverNonArray t => s!"For loop requires an iterable (array). Got '{t}'."
  | guardFallsThrough =>
    "A guard statement's 'else' block must terminate execution "
      ++ "(e.g., via return, throw, break, or continue)."
  | strayJump word (some label) => s!"'{word} {label}' does not refer to an enclosing loop."
  | strayJump word none => s!"'{word}' can only be used inside a loop."
  | noCase printed => s!"No matching pattern found for value: {printed}"
  | raised text => text
  | moduleType m => s!"Cannot access property on non-module/non-object '{m}'."
  | memberMissing p m _ _ => s!"Property '{p}' not found in module '{m}'."
  | moduleNotFound path tried =>
    s!"Module '{path}' not found. Tried paths:" ++ String.join (tried.map ("\n  - " ++ ·))
  | importNameTaken n =>
    s!"Cannot bind module alias '{n}': the name is already declared in this scope."
  | circularImport chain path =>
    let cycle := String.intercalate " -> " (chain ++ [path])
    s!"Circular module dependency detected: {cycle}."
  | moduleUnreadable path reason => s!"Error loading module '{path}': {reason}"
  | resultTooLarge f length =>
    s!"{f}() result would have length {length}, over the limit of {maxCollectionLength}."
  | writeWhileRead => "Internal error: RefCell already mutably borrowed"
  | withoutOrder =>
    "Internal error: user-provided comparison function does not correctly implement a total order"

/-- The advice for a fault; empty when there is none. -/
def advice : RuntimeFault → String
  | operandTypes op _ _ => s!"Ensure both operands for '{op.symbol}' are numbers."
  | divisionByZero | remainderByZero => "Ensure the divisor is not zero."
  | negatedType _ => "Provide a number for unary minus operation."
  | spreadNonArray _ | spreadArgument =>
    "Spread operator \"...\" can only be used with arrays."
  | spreadNonObject _ => "Object spread operator \"...\" can only be used with objects."
  | arrayIndexType _ => "Provide an integer for array indexing."
  | stringIndexType _ => "Provide an integer for string character access."
  | notIndexable _ => "Ensure you are using bracket notation on a valid collection type."
  | propertyOfNull _ =>
    "Ensure the object is not null or undefined before accessing its properties. "
      ++ "Consider using safe navigation (?. )."
  | propertyOfScalar .. => "Properties can only be accessed on objects or strings."
  | propertyTarget .. => "Ensure the target is an object before setting its properties."
  | undefined _ (some candidate) => Nearest.question candidate
  | undefined n none => s!"Declare '{n}' with set, let or const before using it."
  | alreadyDeclared _ => "Use 'set' to reassign it, or choose a different name."
  | constantAssigned _ => "Declare it with 'let' or 'set' if it needs to change."
  | notCallable _ => "Ensure you are calling a function or method."
  | builtinArguments n _ _ => s!"Check the arguments provided to built-in function '{n}'."
  | callDepth _ => "Check for unbounded recursion."
  | loopOverNonArray _ => "Ensure the expression after \"in\" is an array."
  | guardFallsThrough =>
    "Add a return, throw, break, or continue statement to the end of the guard's else block."
  | strayJump .. => "Move the statement into a while, for or loop body, or check the label."
  | noCase _ =>
    "Add an 'default:' clause or ensure all possible values are covered by 'case' clauses."
  | raised _ => "This error was thrown by the \"throw\" statement."
  | memberMissing _ m available nearest =>
    let names := String.intercalate ", " available
    s!"Available properties in '{m}': {names}" ++
      match nearest with
      | some candidate => " " ++ Nearest.question candidate
      | none => ""
  | moduleNotFound .. => "Check the module path and ensure the file exists."
  | importNameTaken _ => "Check if the module path is correct and the module exists."
  | circularImport .. => "Break the circular dependency by redesigning your module imports."
  | moduleUnreadable .. =>
    "An unexpected error occurred while loading this module. Check its syntax or dependencies."
  | writeWhileRead | withoutOrder =>
    "This is a bug in the interpreter, not in your program. Please report it."
  | writeIndexType _ | negativeIndex _ | indexTooLarge _ | writeTarget _ | destructureNonArray
  | destructureNonObject | tooFewArguments .. | tooManyArguments .. | moduleType _
  | resultTooLarge .. => ""

/-- What a fault says. -/
def report (f : RuntimeFault) : Report := ⟨f.code, f.message, f.advice⟩

/-- A fault as a located error. -/
def toDiagnostic (f : RuntimeFault) (loc : Location) : Diagnostic := f.report.toDiagnostic loc

/-- The fault of a declaration or assignment that its scope refused. -/
def ofScope (name : String) : ScopeError → RuntimeFault
  | .alreadyDeclared => alreadyDeclared name
  | .constant => constantAssigned name
  | .undefined => undefined name none

end RuntimeFault

end ScriptLang
