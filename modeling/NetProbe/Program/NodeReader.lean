import NetProbe.Program.Node
import NetProbe.Json.Reader
set_option autoImplicit false

/-! # Reading programs

A program is read while its text goes by, so the first fault in the text is reported, be it one of
the grammar or one of content. A node is an object with a member `func`, perhaps `arguments` and
`children`, and any other members, which are skipped; or a list of one to three items in this
order. -/

namespace NetProbe.Node

open Json

/-- The words for a node in messages. -/
def wanted : String := "struct AstNode"

/-- The members of a node as far as they were met. -/
structure Met where
  func : Option String := none
  arguments : Option Json := none
  children : Option (List Node) := none

/-- The node of the members that were met; only `func` has to be there. -/
def Met.node (m : Met) : Except ReadError Node :=
  match m.func with
  | none => .error (.misfit (.missingField "func"))
  | some func =>
    .ok { func, arguments := m.arguments.getD .null, children := m.children.getD [] }

/-- Fails when a member was met before. -/
def once {α : Type} (name : String) : Option α → Except ReadError Unit
  | none => .ok ()
  | some _ => .error (.misfit (.duplicateField name))

mutual

/-- A node. Each call takes at least one character, so as much `fuel` as the text is long is
    enough. -/
def read (fuel depth : Nat) (cs : List Char) : Except ReadError (Node × List Char) :=
  match fuel with
  | 0 => .error .endInValue
  | fuel + 1 =>
    match skipBlank cs with
    | [] => .error .endInValue
    | c :: rest =>
      if c == '[' then
        match depth with
        | 0 | 1 => .error .tooDeep
        | depth + 1 => do
          let (n, rest) ← readPlaces fuel depth rest
          let rest ← endList rest
          return (n, rest)
      else if c == '\x7b' then
        match depth with
        | 0 | 1 => .error .tooDeep
        | depth + 1 => do
          let (m, rest) ← readMembers fuel depth true {} rest
          let n ← m.node
          let rest ← endObject rest
          return (n, rest)
      else .error (unexpected wanted (c :: rest))

/-- The items of a node that is written as a list. -/
def readPlaces (fuel depth : Nat) (cs : List Char) : Except ReadError (Node × List Char) :=
  match fuel with
  | 0 => .error .endInValue
  | fuel + 1 => do
    let (more, rest) ← nextItem true cs
    if !more then throw (.misfit (.wrongLength 0 (wanted ++ " with 3 elements")))
    let (func, rest) ← expectString rest
    let (more, rest) ← nextItem false rest
    if !more then return ({ func }, rest)
    let (arguments, rest) ← readValue fuel depth rest
    let (more, rest) ← nextItem false rest
    if !more then return ({ func, arguments }, rest)
    let (children, rest) ← readList fuel depth rest
    return ({ func, arguments, children }, rest)

/-- The members of a node that is written as an object, up to the closing brace. -/
def readMembers (fuel depth : Nat) (first : Bool) (m : Met) (cs : List Char) :
    Except ReadError (Met × List Char) :=
  match fuel with
  | 0 => .error .endInValue
  | fuel + 1 => do
    let (more, rest) ← nextKey first cs
    if !more then return (m, rest)
    let (key, rest) ← readString rest
    if key == "func" then
      once key m.func
      let rest ← readColon rest
      let (func, rest) ← expectString rest
      readMembers fuel depth false { m with func := some func } rest
    else if key == "arguments" then
      once key m.arguments
      let rest ← readColon rest
      let (arguments, rest) ← readValue fuel depth rest
      readMembers fuel depth false { m with arguments := some arguments } rest
    else if key == "children" then
      once key m.children
      let rest ← readColon rest
      let (children, rest) ← readList fuel depth rest
      readMembers fuel depth false { m with children := some children } rest
    else
      let rest ← readColon rest
      let rest ← skipValue fuel rest
      readMembers fuel depth false m rest

/-- A list of nodes. -/
def readList (fuel depth : Nat) (cs : List Char) : Except ReadError (List Node × List Char) :=
  match fuel with
  | 0 => .error .endInValue
  | fuel + 1 =>
    match skipBlank cs with
    | [] => .error .endInValue
    | c :: rest =>
      if c == '[' then
        match depth with
        | 0 | 1 => .error .tooDeep
        | depth + 1 => do
          let (ns, rest) ← readNodes fuel depth true rest
          let rest ← endList rest
          return (ns, rest)
      else .error (unexpected "a sequence" (c :: rest))

/-- The nodes of a list, up to the closing bracket. -/
def readNodes (fuel depth : Nat) (first : Bool) (cs : List Char) :
    Except ReadError (List Node × List Char) :=
  match fuel with
  | 0 => .error .endInValue
  | fuel + 1 => do
    let (more, rest) ← nextItem first cs
    if !more then return ([], rest)
    let (n, rest) ← read fuel depth rest
    let (ns, rest) ← readNodes fuel depth false rest
    return (n :: ns, rest)

end

/-- The program that a text holds. -/
def parse (text : String) : Except CompileError Node :=
  let cs := text.toList
  let result : Except ReadError Node := do
    let (n, rest) ← read (2 * fuelFor cs) depthLimit cs
    expectEnd rest
    return n
  match result with
  | .ok n => .ok n
  | .error e => .error (.malformedProgram e)

end NetProbe.Node
