import NetProbe.Run.Script
set_option autoImplicit false

/-! # Running activities

An activity is run in surroundings: a network that answers attempts after some time or never,
moments at which contexts are called off, and random words. Time passes only when nothing else is
left to do. Then the clock goes on to the moment at which the first attempts end, and the activities
that wait for these go on, in the order in which the attempts were started; the activities of a pool
go on together, and those that wait for their turn come after them. -/

namespace NetProbe

/-- How everything behaves that an activity does not decide itself. -/
structure Surroundings where
  /-- The answer to an attempt and the milliseconds that it takes; nothing if it never comes. The
      number counts the attempts before. -/
  network : Nat → (a : Attempt) → Option (Nat × a.Answer)
  /-- The numbers of contexts that are called off, and from when on. -/
  cancelled : List (Nat × Time) := []
  random : Nat → UInt16 := fun _ => 0

/-- A session and what was used up so far. -/
structure World where
  session : Session := {}
  now : Time := 0
  /-- How many attempts were started. -/
  attempts : Nat := 0
  /-- How many random words were drawn. -/
  words : Nat := 0

namespace Surroundings

/-- From when on a context is called off, if it ever is. -/
def calledOff (s : Surroundings) (c : Context) : Option Time :=
  ((s.cancelled.filter fun m => c.lineage.contains m.1).map Prod.snd).min?

/-- The answer to an attempt and when it comes. Waiting takes as long as it is meant to. -/
def answer (s : Surroundings) (w : World) : (a : Attempt) → Option (Time × a.Answer)
  | .pause duration => some (w.now + duration, ())
  | a => (s.network w.attempts a).map fun r => (w.now + r.1, r.2)

/-- How an attempt ends that is started now, if it does. -/
def ending (s : Surroundings) (w : World) (c : Context) (a : Attempt) :
    Option (Ending a.Answer) :=
  c.ending w.now (s.calledOff c) (s.answer w a)

end Surroundings

/-- The world after some more attempts were started. -/
def World.started (w : World) (count : Nat) : World :=
  { w with attempts := w.attempts + count }

/-! ## Effects -/

/-- When an effect is answered: at once, at some moment, with the number of the attempt whose end
    this is, or never. -/
inductive Reply (α : Type) where
  | now (a : α)
  | later (time : Time) (number : Nat) (a : α)
  | never

/-- The reply for an effect that is answered at a moment. -/
def Reply.at {α : Type} (w : World) (time : Time) (number : Nat) (a : α) : Reply α :=
  if time ≤ w.now then .now a else .later time number a

/-- What an effect is answered, and what becomes of the world. -/
def Surroundings.perform (s : Surroundings) : (e : Effect) → World → Reply e.Answer × World
  | .session c, w => (.now (c.run w.session).1, { w with session := (c.run w.session).2 })
  | .now, w => (.now w.now, w)
  | .randomWord, w => (.now (s.random w.words), { w with words := w.words + 1 })
  | .attempt c a, w =>
    match s.ending w c a with
    | some e => (.at w e.time w.attempts e.result, w.started 1)
    | none => (.never, w.started 1)
  | .attemptBoth c a b, w =>
    match s.ending w c a, s.ending (w.started 1) c b with
    | some e, some f =>
      let number := if e.time < f.time then w.attempts + 1 else w.attempts
      (.at w (max e.time f.time) number (e.result, f.result), w.started 2)
    | _, _ => (.never, w.started 2)

/-! ## Activities that wait -/

/-- An activity that can only go on when time has passed, or not at all. -/
inductive Parked where
  | done (v : Value)
  | waiting (time : Time) (number : Nat) (resume : Activity)
  | stuck
  | pool (width : Nat) (running : List Parked) (waiting : List Activity) (finished : List Value)
      (next : List Value → Activity)

/-- The activities of a pool that wait, those whose turn has not come, and the values of those that
    finished. -/
structure Crew where
  running : List Parked := []
  waiting : List Activity := []
  finished : List Value := []

/-- The crew with one more activity that was under way: it waits now, or has finished. -/
def Crew.add (c : Crew) : Parked → Crew
  | .done v => { c with finished := c.finished ++ [v] }
  | p => { c with running := c.running ++ [p] }

mutual

/-- Goes on with an activity until it waits. -/
def advance (s : Surroundings) : Activity → World → Parked × World
  | .done v, w => (.done v, w)
  | .perform e next, w =>
    match s.perform e w with
    | (.now a, w) => advance s (next a) w
    | (.later time number a, w) => (.waiting time number (next a), w)
    | (.never, w) => (.stuck, w)
  | .pool width running waiting finished next, w =>
    let (crew, w) := advanceAll s running { finished } w
    let (crew, w) := fill s width waiting crew w
    if crew.running.isEmpty then advance s (next crew.finished) w
    else (.pool width crew.running crew.waiting crew.finished next, w)

/-- Goes on with activities one after the other. -/
def advanceAll (s : Surroundings) : List Activity → Crew → World → Crew × World
  | [], crew, w => (crew, w)
  | p :: rest, crew, w =>
    let (q, w) := advance s p w
    advanceAll s rest (crew.add q) w

/-- Starts activities as long as there is room for them; there is always room for one. -/
def fill (s : Surroundings) (width : Nat) : List Activity → Crew → World → Crew × World
  | [], crew, w => (crew, w)
  | p :: rest, crew, w =>
    if crew.running.length < max width 1 then
      let (q, w) := advance s p w
      fill s width rest (crew.add q) w
    else ({ crew with waiting := p :: rest }, w)

end

namespace Parked

mutual

/-- The moment at which the first attempts end. -/
def earliest? : Parked → Option Time
  | waiting time _ _ => some time
  | pool _ running _ _ _ => (earliestAll running).min?
  | _ => none

def earliestAll : List Parked → List Time
  | [] => []
  | p :: rest => (earliest? p).toList ++ earliestAll rest

end

/-- An activity of a pool at a moment: the number of the first attempt in it that has ended, if one
    has, and how it goes on. -/
structure Turn where
  number : Option Nat
  parked : Parked
  resume : World → Parked × World

/-- Goes on with the activities whose attempts have ended, in the order in which these were started;
    the others go on waiting. -/
def takeTurns (turns : List Turn) (crew : Crew) (w : World) : Crew × World :=
  let ready := (turns.filter fun t => t.number.isSome).mergeSort fun t u =>
    t.number.getD 0 ≤ u.number.getD 0
  let idle := (turns.filter fun t => t.number.isNone).map Turn.parked
  ready.foldl (fun (crew, w) t =>
    let (q, w) := t.resume w
    (crew.add q, w)) ({ crew with running := idle }, w)

mutual

/-- How an activity goes on at a moment. -/
def turn (s : Surroundings) (time : Time) : Parked → Turn
  | done v => { number := none, parked := done v, resume := fun w => (done v, w) }
  | stuck => { number := none, parked := stuck, resume := fun w => (stuck, w) }
  | waiting moment number p =>
    { number := if moment ≤ time then some number else none,
      parked := waiting moment number p,
      resume := advance s p }
  | pool width running queued finished next =>
    let turns := turnAll s time running
    { number := (turns.filterMap Turn.number).min?,
      parked := pool width running queued finished next,
      resume := fun w =>
        let (crew, w) := takeTurns turns { finished } w
        let (crew, w) := fill s width queued crew w
        if crew.running.isEmpty then advance s (next crew.finished) w
        else (pool width crew.running crew.waiting crew.finished next, w) }

def turnAll (s : Surroundings) (time : Time) : List Parked → List Turn
  | [] => []
  | p :: rest => turn s time p :: turnAll s time rest

end

/-- Lets time pass until the activity has finished, for at most so many moments. -/
def finish (s : Surroundings) : Nat → Parked → World → Option (Value × World)
  | _, done v, w => some (v, w)
  | 0, _, _ => none
  | moments + 1, p, w =>
    match p.earliest? with
    | none => none
    | some time =>
      let (p, w) := (p.turn s time).resume { w with now := max w.now time }
      finish s moments p w

end Parked

/-- The value of an activity and what became of the world, if the activity finishes within so many
    moments at which something happens. -/
def Surroundings.run (s : Surroundings) (moments : Nat) (p : Activity) (w : World) :
    Option (Value × World) :=
  let (p, w) := advance s p w
  p.finish s moments w

end NetProbe
