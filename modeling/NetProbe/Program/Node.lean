import NetProbe.Program.Error
set_option autoImplicit false

/-! # Programs as trees

A program is a tree of nodes. Each names an operation, gives its arguments as a JSON value and has
child nodes in order. -/

namespace NetProbe

/-- A node of a program. -/
structure Node where
  /-- The name of the operation. -/
  func : String
  /-- The arguments of the operation; `null` when there are none. -/
  arguments : Json := .null
  children : List Node := []
deriving Inhabited

namespace Node

/-- The node with an empty object as its arguments. -/
def new (func : String) (children : List Node) : Node :=
  { func, arguments := .object [], children }

mutual

/-- Equality of programs, with fractions compared as numbers. -/
def same : Node → Node → Bool
  | ⟨f, a, xs⟩, ⟨g, b, ys⟩ => f == g && a.same b && sameList xs ys

def sameList : List Node → List Node → Bool
  | [], [] => true
  | x :: xs, y :: ys => same x y && sameList xs ys
  | _, _ => false

end

mutual

/-- The node as a JSON value with its members in the order in which they are written. -/
def toJson : Node → Json
  | ⟨func, arguments, children⟩ =>
    .object [("func", .string func), ("arguments", arguments),
      ("children", .array (listToJson children))]

def listToJson : List Node → List Json
  | [] => []
  | n :: rest => toJson n :: listToJson rest

end

/-- The program on one line. -/
def text (n : Node) : String :=
  n.toJson.compact

/-- The program with one member a line. -/
def prettyText (n : Node) : String :=
  n.toJson.pretty

/-- Fails unless the node has exactly that many children. -/
def requireChildren (n : Node) (count : Nat) : Except CompileError Unit :=
  if n.children.length = count then .ok ()
  else .error (.wrongChildCount n.func (toString count) n.children.length)

/-- Fails unless the node has at least that many children. -/
def requireAtLeast (n : Node) (count : Nat) : Except CompileError Unit :=
  if count ≤ n.children.length then .ok ()
  else .error (.wrongChildCount n.func ("at least " ++ toString count) n.children.length)

end Node

end NetProbe
