import NetProbe.Operation
import NetProbe.Program.NodeReader
set_option autoImplicit false

/-! # Registries of operations

A registry knows operations by their names and turns programs into operations: `Registry.compile`
looks the name of a node up and leaves the node to the template that is registered under it,
together with what its children were turned into. Names are kept in ascending order, and a template
replaces the one of the same name. -/

namespace NetProbe

/-- What a program was turned into, with notes for the log. The notes are there even if the program
    was refused. -/
structure Compilation (α : Type) where
  notes : List LogEntry := []
  result : Except CompileError α

namespace Compilation

variable {α β : Type}

def ok (a : α) : Compilation α := { result := .ok a }

def refuse (e : CompileError) : Compilation α := { result := .error e }

/-- A check that leaves no notes. -/
def ofResult (r : Except CompileError α) : Compilation α := { result := r }

def map (f : α → β) (c : Compilation α) : Compilation β :=
  { notes := c.notes, result := c.result.map f }

end Compilation

/-- A child of a node: the name of its operation, and what it is turned into. -/
structure Child where
  func : String
  compiled : Compilation Operation

/-- The operations of all children, or the first fault among them. Children behind the fault are
    not looked at. -/
def Compilation.children : List Child → Compilation (List Operation)
  | [] => .ok []
  | c :: cs =>
    match c.compiled.result with
    | .error e => { notes := c.compiled.notes, result := .error e }
    | .ok op =>
      let rest := Compilation.children cs
      { notes := c.compiled.notes ++ rest.notes, result := rest.result.map (op :: ·) }

/-- How nodes with some name are turned into operations. -/
structure Template where
  name : String
  /-- The operation of a node, given which names are known and what its children are. -/
  compile : (known : String → Bool) → Node → List Child → Compilation Operation

/-- Operations by their names, in ascending order. -/
structure Registry where
  templates : List Template := []

namespace Registry

/-- Puts a template in its place, instead of one with the same name. -/
def insert (t : Template) : List Template → List Template
  | [] => [t]
  | u :: rest =>
    if t.name < u.name then t :: u :: rest
    else if t.name = u.name then t :: rest
    else u :: insert t rest

def register (r : Registry) (t : Template) : Registry :=
  { templates := insert t r.templates }

/-- The registry with all of the templates, of which later ones replace earlier ones. -/
def registerAll (r : Registry) (ts : List Template) : Registry :=
  ts.foldl register r

def find? (r : Registry) (name : String) : Option Template :=
  r.templates.find? fun t => t.name == name

/-- Whether a name is registered. -/
def knows (r : Registry) (name : String) : Bool :=
  (r.find? name).isSome

/-- The registered names in ascending order. -/
def names (r : Registry) : List String :=
  r.templates.map Template.name

mutual

/-- The operation that a program stands for. -/
def compile (r : Registry) : Node → Compilation Operation
  | ⟨func, arguments, children⟩ =>
    match r.find? func with
    | none => .refuse (.unknownOperation func)
    | some t => t.compile r.knows ⟨func, arguments, children⟩ (compileChildren r children)

/-- What the children of a node are turned into. -/
def compileChildren (r : Registry) : List Node → List Child
  | [] => []
  | n :: rest => { func := n.func, compiled := compile r n } :: compileChildren r rest

end

/-- The operation of a program that is given as a text. -/
def compileText (r : Registry) (text : String) : Compilation Operation :=
  match Node.parse text with
  | .ok n => r.compile n
  | .error e => .refuse e

end Registry

end NetProbe
