import NetProbe.Config.Basic
import NetProbe.Program.Error
set_option autoImplicit false

/-! # Everything that can go wrong around a measurement

The errors of building, compiling, configuring and evaluating as one type, each with the chain of
its causes from the outermost inwards. What goes wrong during a measurement is no such error: it is
part of the result. -/

namespace NetProbe

/-- Why a program could not be measured, or ended early. -/
inductive Trouble where
  | build (e : BuildError)
  | compile (e : CompileError)
  | config (e : ConfigError)
  /-- The evaluation ended with an exception. -/
  | exception (reason : String)
  /-- Any other trouble, by its messages. -/
  | other (message : String) (causes : List String)
deriving Repr

/-- An exception as errors show it. -/
def exceptionMessage (reason : String) : String := "exception: " ++ reason

/-- What a compile error was caused by. -/
def CompileError.causes : CompileError → List String
  | .malformedArguments _ fault => [fault.message]
  | .malformedProgram fault => [fault.message]
  | _ => []

/-- What a configuration error was caused by. -/
def ConfigError.causes : ConfigError → List String
  | .io message => [message]
  | _ => []

namespace Trouble

def message : Trouble → String
  | build e => "build: " ++ e.message
  | compile e => "compile: " ++ e.message
  | config e => "config: " ++ e.message
  | exception reason => "evaluation: " ++ exceptionMessage reason
  | other message _ => message

/-- The messages of the causes, from the outermost inwards. -/
def causes : Trouble → List String
  | build e => [e.message]
  | compile e => e.message :: e.causes
  | config e => e.message :: e.causes
  | exception reason => [exceptionMessage reason]
  | other _ causes => causes

/-! ## Printing -/

/-- The lines of a cause: the first one behind its number, if there are several causes, and the
    others below it. -/
def causeText (number : Option Nat) (cause : String) : String :=
  let (first, others) := match number with
    | some n => ("    " ++ toString n ++ ": ", "       ")
    | none => ("    ", "    ")
  first ++ ("\n" ++ others).intercalate (cause.splitOn "\n")

/-- The trouble with all its causes, as it is printed at the end of a program. -/
def text (t : Trouble) : String :=
  let causes := match t.causes with
    | [] => []
    | [c] => [causeText none c]
    | cs => cs.mapIdx fun i c => causeText (some i) c
  "Error: " ++ t.message ++
    (if causes.isEmpty then "" else "\n\nCaused by:\n" ++ "\n".intercalate causes)

end Trouble

end NetProbe
