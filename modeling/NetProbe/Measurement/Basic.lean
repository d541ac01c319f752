import NetProbe.Run.Script
set_option autoImplicit false

/-! # What measurements have in common

A measurement is called with an input of its kind, in a scope. It comes to an output, or fails, or
refuses to run; a failure is a result of the measurement, a refusal is a fault of the program. -/

namespace NetProbe

/-- In what an operation runs. -/
structure Scope where
  context : Context
  config : Config := {}

/-- What a call of an operation comes to. -/
inductive Outcome (α : Type) where
  | output (a : α)
  /-- The name of the failure. -/
  | failed (failure : String)
  | refused (reason : String)
deriving DecidableEq, Repr

/-- What a call of the named operation comes to, as a value. -/
def Outcome.value {α : Type} (operation : String) (wrap : α → Value) : Outcome α → Value
  | output a => wrap a
  | failed failure => .error { operation, failure }
  | refused reason => .exception ⟨operation ++ ": " ++ reason⟩

/-- The name of a failure in a result. -/
def failureOf {α : Type} : Except String α → Option String
  | .ok _ => none
  | .error failure => some failure

/-- A result, or the failure that an interruption amounts to. -/
def unlessInterrupted {α β : Type} (f : α → Except String β) :
    Except Interruption α → Except String β
  | .ok a => f a
  | .error i => .error i.failure

/-- An answer, or the failure that an error of input or output amounts to. -/
def unlessBroken {α : Type} : Except IoError α → Except String α
  | .ok a => .ok a
  | .error e => .error e.failure

end NetProbe
