set_option autoImplicit false

/-! # Slots

A slot owns a connection for as long as no operation needs it. An operation takes the connection
out and may put it back. Closing a slot drops what it owns and is final: a connection that is put
back later is dropped too. -/

namespace NetProbe

/-- A place for something that has one owner at a time. -/
inductive Slot (σ : Type) where
  | open (content : σ)
  | taken
  | closed
deriving DecidableEq, Repr

namespace Slot

variable {σ : Type}

/-- Takes the content out, if it is there. -/
def take : Slot σ → Option σ × Slot σ
  | .open s => (some s, .taken)
  | .taken => (none, .taken)
  | .closed => (none, .closed)

/-- Puts content in. A closed slot stays closed and drops it, which the answer `false` says. -/
def restore (s : σ) : Slot σ → Bool × Slot σ
  | .closed => (false, .closed)
  | _ => (true, .open s)

/-- Drops the content for good. -/
def close : Slot σ → Slot σ :=
  fun _ => .closed

def isOpen : Slot σ → Bool
  | .open _ => true
  | _ => false

def isClosed : Slot σ → Bool
  | .closed => true
  | _ => false

/-- The state of a slot in a word. -/
def state : Slot σ → String
  | .open _ => "open"
  | .taken => "taken"
  | .closed => "closed"

/-- A slot as messages show it. -/
def text (s : Slot σ) : String :=
  "ConnSlot \x7b state: " ++ "\"" ++ s.state ++ "\" \x7d"

end Slot

end NetProbe
