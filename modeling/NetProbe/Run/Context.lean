import NetProbe.Net.Fault
set_option autoImplicit false

/-! # Contexts

A context says until when an operation may take and whether it was called off. Contexts form a
tree: a child never outlives its parent's deadline, and it is called off when its parent is. The
numbers of the contexts on the way to the root are a context's lineage; it is called off when one
of them is among those that were cancelled. How work in a context ends is told from when it would be
done (`Context.ending`), or from what it says whenever it is polled (`Context.poll`). -/

namespace NetProbe

/-- A moment, in milliseconds since the clock started. -/
abbrev Time := Nat

structure Context where
  /-- The number of the context and those of its ancestors, from the inside out. -/
  lineage : List Nat
  deadline : Option Time := none
deriving DecidableEq, Repr

namespace Context

/-- A context without a deadline and without a parent. -/
def root (number : Nat) : Context where
  lineage := [number]

/-- The earlier of a moment and a deadline, if there is one. -/
def earlier (t : Time) : Option Time → Time
  | none => t
  | some d => if d < t then d else t

/-- The context with a deadline of at most `timeout` from now, under the same number. -/
def limit (c : Context) (now : Time) (timeout : Nat) : Context :=
  { c with deadline := some (earlier (now + timeout) c.deadline) }

/-- A child with a number of its own and a deadline of at most `timeout` from now. -/
def withTimeout (c : Context) (number : Nat) (now : Time) (timeout : Nat) : Context where
  lineage := number :: c.lineage
  deadline := some (earlier (now + timeout) c.deadline)

/-- Whether the context or one of its ancestors is among the cancelled ones. -/
def isCancelled (c : Context) (cancelled : List Nat) : Bool :=
  c.lineage.any cancelled.contains

end Context

/-- The number of seconds that a clock can count to. -/
def latestSecond : Nat := 9223372036854775807

/-- Whether a clock can show a moment. -/
def Representable (t : Time) : Prop := t / 1000 ≤ latestSecond

/-- A timeout of so many seconds, in milliseconds. -/
def milliseconds (seconds : UInt64) : Nat := seconds.toNat * 1000

/-! ## Waiting -/

/-- How work within a context ends: when it does and with what. -/
structure Ending (α : Type) where
  time : Time
  result : Except Interruption α

/-- The earliest of some endings; of those at the same moment, the first. -/
def Ending.first {α : Type} : List (Option (Ending α)) → Option (Ending α)
  | [] => none
  | none :: rest => first rest
  | some e :: rest =>
    match first rest with
    | none => some e
    | some f => if f.time < e.time then some f else some e

/-- How work within a context ends that would be done at a moment, or never, and that the context
    may be called off from another moment on. Work in a context that is called off by now is not
    started; else the work, the calling off and the deadline end it, whichever comes first. -/
def Context.ending {α : Type} (c : Context) (now : Time) (calledOff : Option Time)
    (done : Option (Time × α)) : Option (Ending α) :=
  match calledOff.filter (· ≤ now) with
  | some _ => some ⟨now, .error .cancelled⟩
  | none =>
    Ending.first [done.map fun d => ⟨d.1, .ok d.2⟩,
      calledOff.map fun t => ⟨t, .error .cancelled⟩,
      c.deadline.map fun t => ⟨Nat.max now t, .error .deadlineExceeded⟩]

/-! ## Polling

How that comes about: work is polled whenever something wakes it up, and the context decides in
between. -/

section

variable {α : Type}

/-- The moments at which work was polled, and how it ended, if it did. -/
structure Polled (α : Type) where
  polls : List Time := []
  ending : Option (Ending α) := none

/-- Polls work at some moments, one after the other. At each of them the work ends if it is done,
    or else if the context is called off, or else if its deadline has passed. -/
def Context.pollAt (c : Context) (calledOff : Option Time) (work : Time → Option α) :
    List Time → Polled α
  | [] => {}
  | t :: rest =>
    match work t with
    | some a => { polls := [t], ending := some ⟨t, .ok a⟩ }
    | none =>
      if calledOff.any (· ≤ t) then { polls := [t], ending := some ⟨t, .error .cancelled⟩ }
      else if c.deadline.any (· ≤ t) then
        { polls := [t], ending := some ⟨t, .error .deadlineExceeded⟩ }
      else
        let later := c.pollAt calledOff work rest
        { later with polls := t :: later.polls }

/-- Polls work now and whenever it is woken up, unless the context was called off before. -/
def Context.poll (c : Context) (now : Time) (calledOff : Option Time) (work : Time → Option α)
    (wakeUps : List Time) : Polled α :=
  if calledOff.any (· ≤ now) then { ending := some ⟨now, .error .cancelled⟩ }
  else c.pollAt calledOff work (now :: wakeUps)

end

end NetProbe
