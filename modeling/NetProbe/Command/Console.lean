import NetProbe.Command.Job
set_option autoImplicit false

/-! # Hosts in memory

A host whose files are a list, and which keeps what is printed. `Console.carryOut` carries out a
job on it, as a function. -/

namespace NetProbe

/-- Files by the names on their paths from the root. Their directories are there as well. -/
abbrev Files := List (List String × ByteArray)

/-- What a path leads to. -/
inductive Found where
  | file (content : ByteArray)
  | directory
  | missing (e : IoError)

namespace Files

/-- The names on a path below a directory. -/
def names (directory : List String) (path : String) : List String :=
  let start := if path.startsWith "/" then [] else directory
  ((path.splitOn "/").foldl (fun ns n =>
    if n == "" || n == "." then ns
    else if n == ".." then ns.dropLast
    else ns ++ [n]) start)

/-- Whether the names lead to a directory. -/
def isDirectory (fs : Files) (ns : List String) : Bool :=
  ns.isEmpty || fs.any fun f => ns.isPrefixOf f.1 && ns != f.1

/-- Whether the way to the names goes through a file. -/
def crossesFile (fs : Files) (ns : List String) : Bool :=
  fs.any fun f => f.1.isPrefixOf ns && f.1 != ns

/-- What the names lead to. -/
def look (fs : Files) (ns : List String) : Found :=
  match fs.lookup ns with
  | some content => .file content
  | none =>
    if fs.isDirectory ns then .directory
    else if fs.crossesFile ns then .missing (.system SystemError.notADirectory)
    else .missing (.system SystemError.noSuchFile)

/-- What a path leads to. A file does not have a path that is empty or ends like a directory's. -/
def find (fs : Files) (directory : List String) (path : String) : Found :=
  if path.isEmpty then .missing (.system SystemError.noSuchFile)
  else
    match fs.look (names directory path) with
    | .file content =>
      if path.endsWith "/" then .missing (.system SystemError.notADirectory) else .file content
    | found => found

def read (fs : Files) (directory : List String) (path : String) : Except IoError ByteArray :=
  match fs.find directory path with
  | .file content => .ok content
  | .directory => .error (.system SystemError.isADirectory)
  | .missing e => .error e

/-- With one more file, in place of the one of that name. -/
def put (fs : Files) (ns : List String) (content : ByteArray) : Files :=
  (ns, content) :: fs.filter fun f => f.1 != ns

/-- Writes a file into a directory that is there. -/
def write (fs : Files) (directory : List String) (path : String) (content : ByteArray) :
    Except IoError Files :=
  let ns := names directory path
  match fs.find directory path with
  | .file _ => .ok (fs.put ns content)
  | .directory => .error (.system SystemError.isADirectory)
  | .missing e =>
    if path.isEmpty || fs.crossesFile ns then .error e
    else if path.endsWith "/" then .error (.system SystemError.isADirectory)
    else if fs.isDirectory ns.dropLast then .ok (fs.put ns content)
    else .error e

end Files

structure Console where
  files : Files := []
  /-- The names on the path of the working directory. -/
  directory : List String := []
  surroundings : Surroundings
  /-- The most moments at which something happens in an evaluation. -/
  moments : Nat
  /-- The time of day. -/
  clock : String := ""
  output : String := ""
  errors : String := ""

/-- Runs an operation on nothing in a new session. -/
def Surroundings.evaluation (s : Surroundings) (moments : Nat) (clock : String) (scope : Scope)
    (op : Operation) : Option Evaluation :=
  (s.evaluate moments scope op {}).map fun (report, w) =>
    { report, log := w.session.log, startedAt := clock, duration := w.now }

namespace Console

def print (c : Console) (text : String) : Console := { c with output := c.output ++ text }

def complain (c : Console) (text : String) : Console := { c with errors := c.errors ++ text }

/-- Carries out a job, which gives the number that the program ends with. -/
def carryOut (c : Console) : Job → Console × UInt32
  | .done e => (c.complain e.text, e.code)
  | .find path next =>
    c.carryOut (next (match c.files.find c.directory path with
      | .missing _ => false
      | .file _ | .directory => true))
  | .read path next => c.carryOut (next (c.files.read c.directory path))
  | .write path text next =>
    match c.files.write c.directory path text.toUTF8 with
    | .ok files => { c with files }.carryOut (next none)
    | .error e => c.carryOut (next (some e))
  | .print text next => (c.print text).carryOut next
  | .log e next => (c.complain (e.text ++ "\n")).carryOut next
  | .evaluate scope op next =>
    c.carryOut (next (c.surroundings.evaluation c.moments c.clock scope op))

end Console

end NetProbe
