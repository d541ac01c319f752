import NetProbe.Run.Attempt
set_option autoImplicit false

/-! # Scripts and activities

What an operation does, as a tree of its effects: calls of the session, which answer at once, looks
at the clock and at chance, and attempts. A script has one effect after the other; an activity can
also have several activities under way at the same time. What the effects answer is decided by
whoever runs the tree, so that one operation can be looked at on every network and in every order
in which concurrent activities take turns. -/

namespace NetProbe

/-! ## Effects -/

/-- What an operation asks of its session. -/
inductive SessionCall where
  | newTrace
  | log (e : LogEntry)
  | save (o : Observations)
  /-- Number an established stream. -/
  | establish (t : Transport)
  /-- Put a stream into a new slot that the session closes at its end. -/
  | hold (stream : Stream)
  | take (id : SlotId)
  | restore (id : SlotId) (stream : Stream)
  | track (c : Closer)

namespace SessionCall

def Answer : SessionCall → Type
  | newTrace => TraceId
  | log _ | save _ | track _ => Unit
  | establish _ => Stream
  | hold _ => SlotId
  | take _ => Option Stream
  | restore _ _ => Bool

/-- The answer of a session and what becomes of it. -/
def run : (c : SessionCall) → Session → c.Answer × Session
  | newTrace, s => s.newTrace
  | log e, s => ((), s.write e)
  | save o, s => ((), s.save o)
  | establish t, s => s.newStream t
  | hold stream, s => s.hold stream
  | take id, s => s.take id
  | restore id stream, s => s.restore id stream
  | track c, s => ((), s.track c)

end SessionCall

inductive Effect where
  | session (c : SessionCall)
  /-- Look at the clock. -/
  | now
  /-- Draw sixteen random bits. -/
  | randomWord
  /-- Attempt something for as long as a context lasts. -/
  | attempt (c : Context) (a : Attempt)
  /-- Attempt two things at the same time, until both have ended. -/
  | attemptBoth (c : Context) (a b : Attempt)

/-- The answers to an effect. An attempt is answered, or interrupted by its context. -/
def Effect.Answer : Effect → Type
  | session c => c.Answer
  | now => Time
  | randomWord => UInt16
  | attempt _ a => Except Interruption a.Answer
  | attemptBoth _ a b => Except Interruption a.Answer × Except Interruption b.Answer

/-! ## Scripts -/

/-- Effects one after the other, and a result. -/
inductive Script (α : Type) where
  | done (a : α)
  | perform (e : Effect) (next : e.Answer → Script α)

namespace Script

variable {α β : Type}

/-- One script after the other. -/
protected def bind : Script α → (α → Script β) → Script β
  | done a, f => f a
  | perform e next, f => perform e fun answer => (next answer).bind f

instance : Monad Script where
  pure := done
  bind := Script.bind

def call (c : SessionCall) : Script c.Answer := perform (.session c) done

def newTrace : Script TraceId := call .newTrace
def log (e : LogEntry) : Script Unit := call (.log e)
def save (o : Observations) : Script Unit := call (.save o)
def establish (t : Transport) : Script Stream := call (.establish t)
def hold (stream : Stream) : Script SlotId := call (.hold stream)
def take (id : SlotId) : Script (Option Stream) := call (.take id)
def restore (id : SlotId) (stream : Stream) : Script Bool := call (.restore id stream)
def now : Script Time := perform .now done
def randomWord : Script UInt16 := perform .randomWord done

def attempt (c : Context) (a : Attempt) : Script (Except Interruption a.Answer) :=
  perform (.attempt c a) done

def attemptBoth (c : Context) (a b : Attempt) :
    Script (Except Interruption a.Answer × Except Interruption b.Answer) :=
  perform (.attemptBoth c a b) done

/-- The context with a limit of so many seconds from now. -/
def limit (c : Context) (seconds : UInt64) : Script Context := do
  return c.limit (← now) (milliseconds seconds)

end Script

/-! ## Activities -/

/-- Effects and groups of activities one after the other, and a value. -/
inductive Activity where
  | done (v : Value)
  | perform (e : Effect) (next : e.Answer → Activity)
  /-- At most `width` activities at a time, at least one: those that are running, those that wait
      for their turn, and the values of those that finished, in the order in which they did. -/
  | pool (width : Nat) (running waiting : List Activity) (finished : List Value)
      (next : List Value → Activity)

namespace Activity

/-- One activity after the other. -/
protected def bind : Activity → (Value → Activity) → Activity
  | done v, f => f v
  | perform e next, f => perform e fun answer => (next answer).bind f
  | pool width running waiting finished next, f =>
    pool width running waiting finished fun values => (next values).bind f

/-- All activities, at most `width` at a time, and what to do with their values. -/
def all (width : Nat) (ps : List Activity) (next : List Value → Activity) : Activity :=
  pool width [] ps [] next

end Activity

/-- A script as an activity. -/
def Script.activity : Script Value → Activity
  | done v => .done v
  | perform e next => .perform e fun answer => (next answer).activity

end NetProbe
