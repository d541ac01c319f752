import NetProbe.Config.Basic
import NetProbe.Value
set_option autoImplicit false

/-! # Log entries

A message with a level and named fields. An operation logs when it starts and when it stops, the
latter with its failure if it had one. -/

namespace NetProbe

structure LogEntry where
  level : LogLevel
  message : String
  fields : List (String × Json) := []
deriving Repr

namespace LogEntry

def toJson (e : LogEntry) : Json :=
  Json.ofMembers (("level", .string e.level.name) :: ("message", .string e.message) :: e.fields)

/-- A field as it stands on a log line: texts without quotes. -/
def fieldText : String × Json → String
  | (name, .string s) => name ++ "=" ++ s
  | (name, v) => name ++ "=" ++ v.compact

/-- The entry on a log line. -/
def text (e : LogEntry) : String :=
  " ".intercalate (e.level.name :: e.message :: e.fields.map fieldText)

/-- What an operation says about itself, under the number of its trace. -/
def operationMessage (trace : TraceId) (message : String) : String :=
  "[#" ++ toString trace ++ "] " ++ message ++ "..."

/-- The entry of an operation that starts. -/
def started (trace : TraceId) (message : String) : LogEntry where
  level := .info
  message := operationMessage trace message
  fields := [("trace_id", Json.ofInt trace)]

/-- The entry of an operation that stops. -/
def stopped (trace : TraceId) (message : String) (failure : Option String) : LogEntry where
  level := .info
  message := operationMessage trace message ++ " " ++ failure.getD "ok"
  fields := ("trace_id", Json.ofInt trace) :: match failure with
    | some f => [("failure", Json.string f)]
    | none => []

end LogEntry

end NetProbe
