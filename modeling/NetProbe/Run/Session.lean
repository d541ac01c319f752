import NetProbe.Run.Log
import NetProbe.Run.Slot
import NetProbe.Observation
set_option autoImplicit false

/-! # Sessions

What the operations of one evaluation share: the numbers of traces and streams, the slots of its
connections, what is to be closed at its end, the observations and the log. -/

namespace NetProbe

/-- An established stream: its number, and what was put on top of it. -/
structure Stream where
  number : Nat
  transport : Transport
deriving DecidableEq, Repr

/-- Something that a session closes at its end. -/
inductive Closer where
  | slot (id : SlotId)
  /-- Something of an operation that is not built in. -/
  | named (name : String)
deriving DecidableEq, Repr

structure Session where
  /-- How many traces were handed out. -/
  traces : Nat := 0
  /-- How many streams were established. -/
  streams : Nat := 0
  slots : List (Slot Stream) := []
  /-- What is to be closed, in the order in which it was tracked. -/
  closers : List Closer := []
  /-- What was closed, in this order. -/
  closings : List Closer := []
  /-- The groups of observations that were saved and not extracted. -/
  saved : List Observations := []
  log : List LogEntry := []

namespace Session

/-- Hands out the next trace; the first one is 1. -/
def newTrace (s : Session) : TraceId × Session :=
  (Int.ofNat (s.traces + 1), { s with traces := s.traces + 1 })

/-- Numbers an established stream; the first one is 1. -/
def newStream (transport : Transport) (s : Session) : Stream × Session :=
  (⟨s.streams + 1, transport⟩, { s with streams := s.streams + 1 })

def save (o : Observations) (s : Session) : Session :=
  { s with saved := s.saved ++ [o] }

/-- Takes out the observations that were saved. -/
def extract (s : Session) : List Observations × Session :=
  (s.saved, { s with saved := [] })

def track (c : Closer) (s : Session) : Session :=
  { s with closers := s.closers ++ [c] }

def tracked (s : Session) : Nat := s.closers.length

def write (e : LogEntry) (s : Session) : Session :=
  { s with log := s.log ++ [e] }

/-! ## Slots -/

def slot? (s : Session) (id : SlotId) : Option (Slot Stream) :=
  s.slots[id]?

/-- Makes an open slot for a stream, without tracking it. -/
def newSlot (stream : Stream) (s : Session) : SlotId × Session :=
  (s.slots.length, { s with slots := s.slots ++ [.open stream] })

/-- Makes an open slot for a stream and tracks it. -/
def hold (stream : Stream) (s : Session) : SlotId × Session :=
  let (id, s) := s.newSlot stream
  (id, s.track (.slot id))

def setSlot (id : SlotId) (slot : Slot Stream) (s : Session) : Session :=
  { s with slots := s.slots.set id slot }

/-- Takes the stream out of a slot, if it is there. -/
def take (id : SlotId) (s : Session) : Option Stream × Session :=
  match s.slot? id with
  | some slot => (slot.take.1, s.setSlot id slot.take.2)
  | none => (none, s)

/-- Puts a stream into a slot, unless the slot is closed. -/
def restore (id : SlotId) (stream : Stream) (s : Session) : Bool × Session :=
  match s.slot? id with
  | some slot => ((slot.restore stream).1, s.setSlot id (slot.restore stream).2)
  | none => (false, s)

def isOpen (s : Session) (id : SlotId) : Bool :=
  (s.slot? id).any Slot.isOpen

theorem closed_set {slots : List (Slot Stream)} {id : SlotId} {slot slot' : Slot Stream}
    (hslot : slots[id]? = some slot) (h : slot' = .closed ↔ slot = .closed) (i : SlotId) :
    (slots.set id slot')[i]? = some .closed ↔ slots[i]? = some .closed := by
  by_cases hi : id = i
  · subst hi
    obtain ⟨hlt, rfl⟩ := List.getElem?_eq_some_iff.1 hslot
    simp [hlt, h]
  · rw [List.getElem?_set_ne hi]

/-- Taking a stream out of a slot changes nothing but the slot, which is closed afterwards if it was
    so before. -/
theorem exists_take_eq (s : Session) (id : SlotId) : ∃ slots : List (Slot Stream),
    (s.take id).2 = { s with slots } ∧ slots.length = s.slots.length ∧
    ∀ i : SlotId, slots[i]? = some .closed ↔ s.slots[i]? = some .closed := by
  rw [take]
  split
  · next slot hslot =>
    have hclosed : slot.take.2 = .closed ↔ slot = .closed := by cases slot <;> simp [Slot.take]
    exact ⟨_, rfl, List.length_set, closed_set hslot hclosed⟩
  · exact ⟨_, rfl, rfl, fun _ => Iff.rfl⟩

/-- Nor does putting a stream into a slot change anything else. -/
theorem exists_restore_eq (s : Session) (id : SlotId) (stream : Stream) :
    ∃ slots : List (Slot Stream), (s.restore id stream).2 = { s with slots } ∧
      slots.length = s.slots.length ∧
      ∀ i : SlotId, slots[i]? = some .closed ↔ s.slots[i]? = some .closed := by
  rw [restore]
  split
  · next slot hslot =>
    have hclosed : (slot.restore stream).2 = .closed ↔ slot = .closed := by
      cases slot <;> simp [Slot.restore]
    exact ⟨_, rfl, List.length_set, closed_set hslot hclosed⟩
  · exact ⟨_, rfl, rfl, fun _ => Iff.rfl⟩

/-! ## Closing -/

/-- Takes out what is to be closed. -/
def takeClosers (s : Session) : List Closer × Session :=
  (s.closers, { s with closers := [] })

/-- Closes one thing. -/
def closeOne (s : Session) (c : Closer) : Session :=
  let s := { s with closings := s.closings ++ [c] }
  match c with
  | .slot id => s.setSlot id .closed
  | .named _ => s

/-- Closes everything that is tracked, in the order in which it was tracked, and forgets it. -/
def close (s : Session) : Session :=
  s.takeClosers.1.foldl closeOne s.takeClosers.2

/-- The names of the closed things that have one, in the order in which they were closed. -/
def closedNames (s : Session) : List String :=
  s.closings.filterMap fun
    | .named name => some name
    | .slot _ => none

/-- A session as messages show it. -/
def text (s : Session) : String :=
  "Runtime \x7b tracked_closers: " ++ toString s.tracked ++ ", traces: " ++ toString s.traces ++
    ", .. \x7d"

end Session

end NetProbe
