import NetProbe.Command.Invocation
import NetProbe.Config.Document
import NetProbe.Program.Builder
import NetProbe.Program.Standard
import NetProbe.Report
import NetProbe.Trouble
set_option autoImplicit false

/-! # What commands do

A job is what a command does with its host, one step after the other: it looks for files, reads and
writes them, prints, logs and has operations evaluated. `Invocation.job` gives the job of a command
line; what the steps come to is up to the host. -/

namespace NetProbe

/-- What an evaluation came to for its host. -/
structure Evaluation where
  report : Report
  log : List LogEntry
  /-- When it started. -/
  startedAt : String
  /-- How many milliseconds it took. -/
  duration : Nat

/-- How a job ends. -/
inductive Exit where
  | success
  | trouble (t : Trouble)
  /-- The arguments were wrong. -/
  | usage (message : String)

namespace Exit

/-- The number that the program ends with. -/
def code : Exit → UInt32
  | success => 0
  | trouble _ => 1
  | usage _ => 2

/-- What is said about the end. -/
def text : Exit → String
  | success => ""
  | trouble t => t.text ++ "\n"
  | usage message => "error: " ++ message ++ "\n\nFor more information, try '--help'.\n"

end Exit

inductive Job where
  | done (e : Exit)
  /-- Looks whether something has that path. -/
  | find (path : String) (next : Bool → Job)
  | read (path : String) (next : Except IoError ByteArray → Job)
  /-- Writes a file and gives the error that this ran into, if any. -/
  | write (path text : String) (next : Option IoError → Job)
  | print (text : String) (next : Job)
  | log (e : LogEntry) (next : Job)
  /-- Evaluates an operation; the host may give up. -/
  | evaluate (scope : Scope) (op : Operation) (next : Option Evaluation → Job)

namespace Job

/-- Ends with a message and its causes. -/
def fail (message : String) (causes : List String) : Job :=
  .done (.trouble (.other message causes))

/-- Logs what matters at least as much as a level. -/
def note (most : LogLevel) (es : List LogEntry) (next : Job) : Job :=
  (es.filter fun e => decide (e.level.rank ≤ most.rank)).foldr log next

/-- A log entry while a program runs: operations, which name their trace, also say of which program
    they are. -/
def ofProgram (program : String) (e : LogEntry) : LogEntry :=
  if (e.fields.lookup "trace_id").isSome then
    { e with fields := e.fields ++ [("program", .string program)] }
  else e

/-- The seconds of some milliseconds. -/
def secondsJson (duration : Nat) : Json :=
  match Binary.ofDecimal false (UInt64.ofNat duration) (-3) with
  | some x => .number (.fraction x)
  | none => .null

/-- The report of an evaluation as it is written. -/
def reportText (e : Evaluation) : String :=
  (e.report.toTimedJson ⟨e.startedAt, secondsJson e.duration⟩).pretty

/-! ## Configuration -/

/-- Reads a configuration file. -/
def configured (path : String) (next : Config → Job) : Job :=
  .read path fun file =>
    match Config.ofFile file with
    | .ok c => next c
    | .error e => fail (Config.loadMessage path) (e.message :: e.causes)

/-- The configuration file that is read unless another one is asked for. -/
def defaultConfigPath (home : String) : String :=
  (if home.endsWith "/" then home else home ++ "/") ++ ".microprobe/config.toml"

/-- The configuration that is asked for, or that of the home directory if there is one. -/
def withConfig (home path : Option String) (next : Config → Job) : Job :=
  match path, home with
  | some path, _ => configured path next
  | none, some home =>
    let path := defaultConfigPath home
    .find path fun isThere => if isThere then configured path next else next {}
  | none, none => next {}

/-! ## Commands -/

/-- Reads and compiles a program. -/
def withProgram (path : String) (most : LogLevel) (next : Operation → Job) : Job :=
  .read path fun file =>
    match IoError.textOf file with
    | .error e => fail ("Failed to read program " ++ path) [e.message]
    | .ok text =>
      let compiled := Registry.standard.compileText text
      note most compiled.notes <|
        match compiled.result with
        | .error e => fail ("Failed to compile " ++ path) (e.message :: e.causes)
        | .ok op => next op

/-- An exception of the program is an error of the command, once the report is out. -/
def concluded (r : Report) : Job :=
  match r.ended with
  | .exception reason => fail ("program raised an exception: " ++ reason) []
  | .ok _ => .done .success

/-- Writes or prints a report. -/
def deliver (most : LogLevel) (output : Option String) (e : Evaluation) : Job :=
  match output with
  | none => .print (reportText e ++ "\n") (concluded e.report)
  | some path =>
    .write path (reportText e) fun
      | some error => fail ("Failed to write report " ++ path) [error.message]
      | none =>
        note most
          [{ level := .info, message := "report written", fields := [("path", .string path)] }]
          (concluded e.report)

def ofRun (config : Config) (most : LogLevel) (program : String) (output : Option String) : Job :=
  withProgram program most fun op =>
    let start : LogEntry :=
      { level := .info, message := "starting evaluation", fields := [("program", .string program)] }
    note most [start] <|
      .evaluate { context := .root 1, config } op fun
        | none => fail "the evaluation does not end" []
        | some e => note most (e.log.map (ofProgram program)) (deliver most output e)

def ofCommand (config : Config) (most : LogLevel) : Command → Job
  | .run program output => ofRun config most program output
  | .check program =>
    withProgram program most fun _ => .print (program ++ ": ok\n") (.done .success)
  | .templates =>
    .print (String.join (Registry.standard.names.map (· ++ "\n"))) (.done .success)
  | .sample domain =>
    match Piece.sample domain with
    | .error e => fail e.message []
    | .ok p => .print (p.node.prettyText ++ "\n") (.done .success)

end Job

namespace Invocation

/-- The level up to which a command logs. -/
def logLevel (i : Invocation) (c : Config) : LogLevel :=
  if i.verbose then .debug else c.level.getD .info

def job (home : Option String) (i : Invocation) : Job :=
  Job.withConfig home i.config fun c => Job.ofCommand c (i.logLevel c) i.command

end Invocation

/-- What a refused command line comes to. -/
def Refusal.job : Refusal → Job
  | .help command => .print (Invocation.helpText command) (.done .success)
  | .version => .print (Invocation.versionText ++ "\n") (.done .success)
  | .usage message => .done (.usage message)

/-- The job of a command line. -/
def Job.ofArguments (home : Option String) (arguments : List String) : Job :=
  match Invocation.read arguments with
  | .ok i => i.job home
  | .error r => r.job

end NetProbe
