import NetProbe.Json.Error
import NetProbe.Net.Domain
set_option autoImplicit false

/-! # What can be wrong with a program

The faults found while a program is put together with the builder, and those found while a program
that arrived as text is turned into an operation. -/

namespace NetProbe

/-- Why the builder refuses to put pieces together. -/
inductive BuildError where
  /-- A piece has other types than its place asks for. -/
  | typeMismatch (context expected found : String)
  /-- A wrapped operation changes the type of its input. -/
  | notAFilter (name input output : String)
  | invalidArgument (reason : String)
  /-- A sequence without members. -/
  | emptyComposition (name : String)
deriving DecidableEq, Repr

def BuildError.message : BuildError → String
  | .typeMismatch context expected found =>
      context ++ ": wrong type " ++ found ++ "; expected " ++ expected
  | .notAFilter name input output =>
      name ++ ": input type " ++ input ++ " differs from output type " ++ output
  | .invalidArgument reason => "invalid argument: " ++ reason
  | .emptyComposition name => name ++ ": expected at least one function"

/-- Why the value of an argument is refused. -/
inductive ArgumentFault where
  | place (e : PlaceError)
  | emptySnapshot
  | scheme (text : String)
  | path (text : String)
  /-- A refusal by an operation that is not built in, in its own words. -/
  | refused (reason : String)
deriving DecidableEq, Repr

def ArgumentFault.message : ArgumentFault → String
  | .place e => e.message
  | .emptySnapshot => "response_body_snapshot_size must be > 0"
  | .scheme text => "unsupported url_scheme: " ++ Text.quote text
  | .path text => "url_path must start with '/': " ++ Text.quote text
  | .refused reason => reason

/-- Why a program cannot be turned into an operation. `func` is the operation that the fault
    concerns. -/
inductive CompileError where
  | unknownOperation (func : String)
  | malformedArguments (func : String) (fault : Json.Misfit)
  | invalidArgument (func : String) (fault : ArgumentFault)
  | wrongChildCount (func expected : String) (found : Nat)
  /-- The text is not a program. -/
  | malformedProgram (fault : Json.ReadError)
deriving DecidableEq, Repr

def CompileError.message : CompileError → String
  | .unknownOperation func => "no such template: " ++ func
  | .malformedArguments func fault => func ++ ": malformed arguments: " ++ fault.message
  | .invalidArgument func fault => func ++ ": invalid argument: " ++ fault.message
  | .wrongChildCount func expected found =>
      func ++ ": invalid number of children: expected " ++ expected ++ ", found " ++ toString found
  | .malformedProgram fault => "malformed program: " ++ fault.message

end NetProbe
