set_option autoImplicit false

/-! # Switches of a command line

A command is given switches: long ones behind two dashes and letters behind one, of which several
may follow the same dash. A switch with a value takes it after an equals sign, directly behind its
letter, or from the next argument. Two dashes alone end the switches.

The value of a switch counts only when it is known that nothing else belongs to it, so the last
switch stays pending until the next one comes or the arguments end. -/

namespace NetProbe

/-- What a switch is there for. -/
inductive SwitchUse where
  /-- To be there or not. -/
  | mark
  /-- To have a value; its placeholder in usage texts, and whether it may be the empty text. -/
  | value (placeholder : String) (mayBeEmpty : Bool)
  | help
  | version
deriving DecidableEq, Repr

/-- A switch that a command knows. -/
structure Switch where
  name : String
  letter : Option Char := none
  use : SwitchUse
  about : String
deriving DecidableEq, Repr

/-- The switch as messages show it. -/
def Switch.text (s : Switch) : String :=
  match s.use with
  | .value placeholder _ => "--" ++ s.name ++ " <" ++ placeholder ++ ">"
  | _ => "--" ++ s.name

/-- Why the arguments are not carried out as a command. -/
inductive Refusal where
  /-- Help was asked for, about a command or the program. -/
  | help (command : Option String)
  | version
  /-- The arguments are wrong. -/
  | usage (message : String)
deriving DecidableEq, Repr

namespace Refusal

def unexpected (argument : String) : Refusal :=
  .usage ("unexpected argument '" ++ argument ++ "' found")

def missingValue (s : Switch) : Refusal :=
  .usage ("a value is required for '" ++ s.text ++ "' but none was supplied")

def repeated (s : Switch) : Refusal :=
  .usage ("the argument '" ++ s.text ++ "' cannot be used multiple times")

def needlessValue (s : Switch) (v : String) : Refusal :=
  .usage ("unexpected value '" ++ v ++ "' for '" ++ s.text ++ "' found; no more were expected")

end Refusal

/-- The switches that were given. -/
structure Given where
  marks : List String := []
  values : List (String × String) := []
deriving DecidableEq, Repr

namespace Given

def value? (g : Given) (name : String) : Option String := g.values.lookup name

def isMarked (g : Given) (name : String) : Bool := g.marks.contains name

/-- With one more mark, which may be given only once. -/
def mark (g : Given) (s : Switch) : Except Refusal Given :=
  if g.isMarked s.name then .error (.repeated s)
  else .ok { g with marks := s.name :: g.marks }

/-- With the value of one more switch, which may be given only once. -/
def put (g : Given) (s : Switch) (v : String) : Except Refusal Given :=
  if (g.value? s.name).isSome then .error (.repeated s)
  else if v.isEmpty && !(s.use matches .value _ true) then .error (.missingValue s)
  else .ok { g with values := (s.name, v) :: g.values }

/-- What is given in one of two places; values of the second one count more. -/
def merge (outer inner : Given) : Given where
  marks := inner.marks ++ outer.marks
  values := inner.values ++ outer.values

end Given

/-- How far the switches were read: what counts already, and the last switch with its value, or
    without one as long as it waits for it. -/
structure SwitchState where
  given : Given := {}
  pending : Option (Switch × Option String) := none
deriving DecidableEq, Repr

namespace SwitchState

/-- The switch that takes the next argument as its value. -/
def waiting? (t : SwitchState) : Option Switch :=
  match t.pending with
  | some (s, none) => some s
  | _ => none

/-- Everything that was given, if the pending switch is all right. -/
def settle (t : SwitchState) : Except Refusal Given :=
  match t.pending with
  | none => .ok t.given
  | some (s, none) => .error (.missingValue s)
  | some (s, some v) => t.given.put s v

/-- The state after a switch without a value. -/
def meet (t : SwitchState) (s : Switch) : Except Refusal SwitchState := do
  let given ← t.settle
  match s.use with
  | .mark => return { given := ← given.mark s }
  | .value _ _ => return { given, pending := some (s, none) }
  | .help => throw (.help none)
  | .version => throw .version

/-- The state after a switch with its value. -/
def meetWith (t : SwitchState) (s : Switch) (v : String) : Except Refusal SwitchState := do
  match s.use with
  | .value _ _ => return { given := ← (← t.settle).put s v }
  | .mark | .help | .version => throw (.needlessValue s v)

/-- Reads a long switch, given what follows the dashes. -/
def long (switches : List Switch) (t : SwitchState) (cs : List Char) :
    Except Refusal SwitchState :=
  let name := String.ofList (cs.takeWhile (· != '='))
  match switches.find? fun s => s.name == name with
  | none => .error (.unexpected ("--" ++ name))
  | some s =>
    match cs.dropWhile (· != '=') with
    | [] => t.meet s
    | _ :: v => t.meetWith s (String.ofList v)

/-- Reads letters behind one dash. A letter whose switch has a value takes everything behind it. -/
def letters (switches : List Switch) (t : SwitchState) : List Char → Except Refusal SwitchState
  | [] => .ok t
  | c :: rest =>
    match switches.find? fun s => s.letter == some c with
    | none => .error (.unexpected (String.ofList ['-', c]))
    | some s =>
      match s.use, rest with
      | .value _ _, '=' :: v => t.meetWith s (String.ofList v)
      | .value _ _, v :: vs => t.meetWith s (String.ofList (v :: vs))
      | _, _ => (t.meet s).bind fun t => letters switches t rest

end SwitchState

/-- How the switches of a command end: with the arguments, or before a command of its own. -/
inductive SwitchEnd where
  | finished (g : Given)
  | command (t : SwitchState) (name : String) (rest : List String)
deriving DecidableEq, Repr

/-- Reads switches up to the end or to a command. -/
def readSwitches (switches : List Switch) (commands : List String) (t : SwitchState) :
    List String → Except Refusal SwitchEnd
  | [] => t.settle.map .finished
  | a :: rest =>
    if t.waiting?.isNone && commands.contains a then .ok (.command t a rest)
    else
      match a.toList with
      | ['-', '-'] =>
        match rest with
        | [] => t.settle.map .finished
        | b :: _ => .error (.unexpected b)
      | '-' :: '-' :: cs =>
        (t.long switches cs).bind fun t => readSwitches switches commands t rest
      | '-' :: c :: cs =>
        (t.letters switches (c :: cs)).bind fun t => readSwitches switches commands t rest
      | _ =>
        match t.waiting? with
        | some s => readSwitches switches commands { t with pending := some (s, some a) } rest
        | none =>
          .error (if commands.isEmpty then .unexpected a
            else .usage ("unrecognized subcommand '" ++ a ++ "'"))

end NetProbe
