/-!
# Failures of a host

What a host may answer instead of a result, and requests over the network with their answers.
-/

namespace ScriptLang

/-- Why a host did not do what it was asked. -/
inductive HostFailure where
  /-- A file operation failed, for this reason. -/
  | io (reason : String)
  /-- A request over the network failed, for this reason. -/
  | network (reason : String)
  /-- The host does not offer this. -/
  | unsupported (capability : String)
  deriving DecidableEq, Repr

/-- The wording of a failure. -/
def HostFailure.message : HostFailure → String
  | .io reason => reason
  | .network reason => reason
  | .unsupported capability => s!"{capability} is not available in this environment"

/-- A request over the network. -/
structure WebRequest where
  method : String
  url : String
  /-- Names with values, in order. -/
  headers : List (String × String) := []
  body : Option String := none
  deriving DecidableEq, Repr, Inhabited

/-- The answer to a request. -/
structure WebResponse where
  status : Nat
  body : String
  deriving DecidableEq, Repr, Inhabited

end ScriptLang
