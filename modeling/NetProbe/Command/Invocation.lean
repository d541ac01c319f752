import NetProbe.Command.Switch
set_option autoImplicit false

/-! # What a command line asks for

The program runs, checks or shows measurement programs. Two switches may stand before the command
or behind it: the configuration file, for which the place behind the command counts, and the mark
for debug logs. -/

namespace NetProbe

/-- What is to be done. -/
inductive Command where
  /-- Evaluates a program and writes the report to a file or prints it. -/
  | run (program : String) (output : Option String)
  /-- Compiles a program. -/
  | check (program : String)
  /-- Lists the operations that programs may use. -/
  | templates
  /-- Prints a program that measures a domain. -/
  | sample (domain : String)
deriving DecidableEq, Repr

structure Invocation where
  config : Option String := none
  verbose : Bool := false
  command : Command
deriving DecidableEq, Repr

namespace Invocation

/-! ## What can be given -/

def programName : String := "microprobe"

def versionText : String := programName ++ " 0.1.0"

def sharedSwitches : List Switch := [
  { name := "config", use := .value "CONFIG" false
    about := "Probe configuration file (default: ~/.microprobe/config.toml when present)" },
  { name := "verbose", letter := some 'v', use := .mark
    about := "Log at debug level regardless of the configured level" }]

def helpSwitch : Switch :=
  { name := "help", letter := some 'h', use := .help, about := "Print help" }

def versionSwitch : Switch :=
  { name := "version", letter := some 'V', use := .version, about := "Print version" }

def programSwitch (about : String) : Switch :=
  { name := "program", letter := some 'p', use := .value "PROGRAM" false, about }

def outputSwitch : Switch :=
  { name := "output", letter := some 'o', use := .value "OUTPUT" false
    about := "Write the report here instead of stdout" }

def defaultDomain : String := "www.example.com"

def domainSwitch : Switch :=
  { name := "domain", letter := some 'd', use := .value "DOMAIN" true
    about := "Domain to measure [default: " ++ defaultDomain ++ "]" }

/-- A command as it is described: its own switches, and the names of those it cannot do without. -/
structure Description where
  name : String
  about : String
  switches : List Switch := []
  required : List String := []

def descriptions : List Description := [
  { name := "run", about := "Compile and evaluate a program, then print a JSON report"
    switches := [programSwitch "JSON program to run", outputSwitch], required := ["program"] },
  { name := "check", about := "Compile a program without running it"
    switches := [programSwitch "JSON program to check"], required := ["program"] },
  { name := "templates", about := "List the operations this probe can compile" },
  { name := "example"
    about := "Print a sample program measuring a domain over TCP, TLS and QUIC"
    switches := [domainSwitch] }]

/-- The command that describes the others. -/
def helpName : String := "help"

def commandNames : List String := descriptions.map Description.name ++ [helpName]

def outerSwitches : List Switch := sharedSwitches ++ [helpSwitch, versionSwitch]

def Description.allSwitches (d : Description) : List Switch :=
  d.switches ++ sharedSwitches ++ [helpSwitch]

/-! ## Help -/

/-- A text that fills at least so many columns. -/
def padded (width : Nat) (s : String) : String :=
  s ++ String.ofList (List.replicate (width - s.length) ' ')

/-- Two columns, the first one as wide as it has to be. -/
def table (rows : List (String × String)) : String :=
  let width := rows.foldl (fun w r => max w r.1.length) 0
  String.join (rows.map fun r => "  " ++ padded width r.1 ++ "  " ++ r.2 ++ "\n")

/-- A switch as a table of switches shows it. -/
def switchRow (s : Switch) : String × String :=
  let letter := match s.letter with
    | some c => String.ofList ['-', c, ',', ' ']
    | none => "    "
  (letter ++ s.text, s.about)

/-- The help on one command. -/
def commandHelp (d : Description) : String :=
  let needed := (d.switches.filter fun s => d.required.contains s.name).map fun s => " " ++ s.text
  d.about ++ "\n\nUsage: " ++ programName ++ " " ++ d.name ++ " [OPTIONS]" ++ String.join needed ++
    "\n\nOptions:\n" ++ table (d.allSwitches.map switchRow)

/-- The help on everything. -/
def programHelp : String :=
  let rows := descriptions.map (fun d => (d.name, d.about)) ++
    [(helpName, "Print this message or the help of the given subcommand(s)")]
  "Compile and run network measurement programs.\n\nUsage: " ++ programName ++
    " [OPTIONS] <COMMAND>\n\nCommands:\n" ++ table rows ++ "\nOptions:\n" ++
    table (outerSwitches.map switchRow)

def helpText (command : Option String) : String :=
  match command.bind fun name => descriptions.find? fun d => d.name == name with
  | some d => commandHelp d
  | none => programHelp

/-! ## Reading -/

/-- Help is about the command that is being read. -/
def aboutCommand (name : String) : Refusal → Refusal
  | .help _ => .help (some name)
  | r => r

/-- What the arguments behind the help command ask for. -/
def readHelp : List String → Refusal
  | [] => .help none
  | [name] =>
    if commandNames.contains name then .help (some name)
    else .usage ("unrecognized subcommand '" ++ name ++ "'")
  | name :: next :: _ =>
    .usage ("unrecognized subcommand '" ++
      (if commandNames.contains name then next else name) ++ "'")

/-- The command of a description, by the switches that it was given. -/
def commandOf (d : Description) (g : Given) : Except Refusal Command :=
  let missing := (d.switches.filter fun s => d.required.contains s.name).filter fun s =>
    (g.value? s.name).isNone
  match missing with
  | s :: _ =>
    .error (.usage ("the following required arguments were not provided:\n  " ++ s.text))
  | [] =>
    let program := (g.value? "program").getD ""
    if d.name == "run" then .ok (.run program (g.value? "output"))
    else if d.name == "check" then .ok (.check program)
    else if d.name == "templates" then .ok .templates
    else .ok (.sample ((g.value? "domain").getD defaultDomain))

/-- Reads the arguments behind the name of a command. -/
def readCommand (d : Description) (arguments : List String) : Except Refusal (Command × Given) :=
  match readSwitches d.allSwitches [] {} arguments with
  | .error r => .error (aboutCommand d.name r)
  | .ok (.finished g) => (commandOf d g).map fun c => (c, g)
  | .ok (.command _ name _) => .error (.unexpected name)

/-- What a command line asks for. -/
def read (arguments : List String) : Except Refusal Invocation := do
  match ← readSwitches outerSwitches commandNames {} arguments with
  | .finished _ =>
    throw (.usage ("'" ++ programName ++ "' requires a subcommand but one was not provided"))
  | .command outer name rest =>
    match descriptions.find? fun d => d.name == name with
    | none => throw (readHelp rest)
    | some d =>
      let (command, inner) ← readCommand d rest
      let g := (← outer.settle).merge inner
      return { config := g.value? "config", verbose := g.isMarked "verbose", command }

end Invocation

end NetProbe
