import NetProbe.Command.Console
import NetProbe.Run.Detached
import NetProbe.Text.Calendar
import Std.Time.DateTime.Timestamp
set_option autoImplicit false

/-! # The program

Carries out the job of its arguments with the files and streams of the system it runs on. Programs
are evaluated as on a host without links. -/

namespace NetProbe.Main

/-- The number that came with an error. -/
def givenNumber : IO.Error → UInt32
  | .alreadyExists _ n _ | .otherError n _ | .resourceBusy n _ | .resourceVanished n _
  | .unsupportedOperation n _ | .hardwareFault n _ | .unsatisfiedConstraints n _
  | .illegalOperation n _ | .protocolError n _ | .timeExpired n _ | .interrupted _ n _
  | .noFileOrDirectory _ n _ | .invalidArgument _ n _ | .permissionDenied _ n _
  | .resourceExhausted _ n _ | .inappropriateType _ n _ | .noSuchThing _ n _ => n
  | .unexpectedEof | .userError _ => 0

/-- The number of the system for an error; it may come with its sign turned. -/
def systemNumber (e : IO.Error) : Nat :=
  let n := (givenNumber e).toNat
  if n < 2147483648 then n else 4294967296 - n

/-- What an action comes to. -/
def tried {α : Type} (action : IO α) : IO (Except IoError α) := do
  try
    return .ok (← action)
  catch
    | .unexpectedEof => return .error (.plain .unexpectedEof)
    | .userError message => return .error (.described .other message)
    | e => return .error (.system (systemNumber e))

/-- The most moments at which something happens in an evaluation. -/
def moments : Nat := 1000000

/-- The present time of day. -/
def clock : IO String := do
  let now ← Std.Time.Timestamp.now
  return Text.momentText now.toNanosecondsSinceUnixEpoch.val.toNat

/-- Carries out a job. -/
def carryOut : Job → IO UInt32
  | .done e => do
    IO.eprint e.text
    return e.code
  | .find path next => do
    let isThere ← tried (IO.FS.Handle.mk path .read)
    carryOut (next (match isThere with
      | .error (.system n) => n != SystemError.noSuchFile && n != SystemError.notADirectory
      | _ => true))
  | .read path next => do
    let content ← tried (IO.FS.readBinFile path)
    carryOut (next content)
  | .write path text next => do
    match ← tried (IO.FS.writeFile path text) with
    | .ok () => carryOut (next none)
    | .error e => carryOut (next (some e))
  | .print text next => do
    IO.print text
    carryOut next
  | .log e next => do
    IO.eprintln e.text
    carryOut next
  | .evaluate scope op next => do
    carryOut (next (Surroundings.detached.evaluation moments (← clock) scope op))

end NetProbe.Main

/-- Runs the program. -/
def main (arguments : List String) : IO UInt32 := do
  NetProbe.Main.carryOut (NetProbe.Job.ofArguments (← IO.getEnv "HOME") arguments)
