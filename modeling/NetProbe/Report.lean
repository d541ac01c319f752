import NetProbe.Operation
import NetProbe.Run.Schedule
set_option autoImplicit false

/-! # Reports

An evaluation runs an operation on nothing and gives a report: whether it ended with an exception,
the failure that was left at its end, if any, and all observations. The context of an evaluation
without a deadline gets the one of the configuration. At the end everything is closed. -/

namespace NetProbe

/-- How an evaluation ended. -/
inductive Ended where
  | ok (failure : Option Failure)
  | exception (reason : String)
deriving DecidableEq, Repr

/-- How an evaluation ended that gave a value. -/
def Ended.ofValue : Value → Ended
  | .exception e => .exception e.reason
  | .error f => .ok (some f)
  | _ => .ok none

/-- What an evaluation gave. -/
structure Report where
  ended : Ended
  observations : Observations
deriving DecidableEq, Repr

/-- When an evaluation started, as a text, and how long it took, in seconds as a number in JSON. -/
structure Timing where
  startedAt : String
  seconds : Json

namespace Report

def isOk (r : Report) : Bool :=
  match r.ended with
  | .ok _ => true
  | .exception _ => false

/-- The members of a report that tell how the evaluation ended. -/
def endedMembers : Ended → List (String × Json)
  | .ok none => [("result", .string "ok")]
  | .ok (some f) => [("result", .string "ok"), ("final_error", f.toJson)]
  | .exception reason => [("result", .string "exception"), ("exception", .string reason)]

def toJson (r : Report) : Json :=
  Json.ofMembers (endedMembers r.ended ++ [("observations", r.observations.toJson)])

/-- The report with the times of its evaluation. -/
def toTimedJson (t : Timing) (r : Report) : Json :=
  .object ([("started_at", .string t.startedAt), ("runtime_secs", t.seconds)] ++
    endedMembers r.ended ++ [("observations", r.observations.toJson)])

/-- What is logged at the end of an evaluation. -/
def note (r : Report) : LogEntry :=
  match r.ended with
  | .ok _ => {
      level := .info, message := "evaluation completed",
      fields := [("observations", Json.ofNat r.observations.size)] }
  | .exception reason => {
      level := .warn, message := "evaluation aborted by exception",
      fields := [("reason", .string reason)] }

end Report

namespace Operation

/-- The context of an evaluation that starts now. -/
def evaluationContext (s : Scope) (now : Time) : Context :=
  match s.context.deadline, s.config.timeouts.evaluation? with
  | none, some seconds => s.context.limit now (milliseconds seconds)
  | _, _ => s.context

/-- The activity of an evaluation. -/
def evaluation (op : Operation) (s : Scope) : Activity :=
  .perform .now fun now => op.apply { s with context := evaluationContext s now } .void

end Operation

/-- The report of an evaluation that gave a value, and the session after it. -/
def Session.report (s : Session) (v : Value) : Report × Session :=
  let (groups, s) := s.extract
  let report : Report := { ended := .ofValue v, observations := Observations.reduce groups }
  (report, s.close.write report.note)

/-- Runs an operation on nothing. There is no report if the operation does not finish within so
    many moments at which something happens. -/
def Surroundings.evaluate (s : Surroundings) (moments : Nat) (scope : Scope) (op : Operation)
    (w : World) : Option (Report × World) :=
  (s.run moments (op.evaluation scope) w).map fun (v, w) =>
    let (report, session) := w.session.report v
    (report, { w with session })

end NetProbe
