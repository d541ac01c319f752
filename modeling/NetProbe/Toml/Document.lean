import NetProbe.Toml.Basic
set_option autoImplicit false

/-! # Tables of a document

A document is a row of statements: a header opens a table, or one more table of an array, and an
assignment gives a value to a key in the open table. A key with dots reaches into tables below.
No statement may say again what another one said: `Origin` keeps how a table came to be, which
decides what may still be added to it. -/

namespace NetProbe.Toml

/-- How a table came to be. -/
inductive Origin where
  /-- By a header of its own, or as the whole document. -/
  | header
  /-- On the way to a table with a header. -/
  | parent
  /-- By the dots in the key of an assignment. -/
  | dotted
deriving DecidableEq, Repr

/-- What a key stands for. -/
inductive Item where
  | value (v : Toml)
  | table (origin : Origin) (members : List (String × Item))
  /-- An array of tables, the last one first. -/
  | tables (elements : List (List (String × Item)))
deriving Inhabited

abbrev Members := List (String × Item)

/-- A statement of a document. -/
inductive Statement where
  | open (path : List String) (key : String)
  | openNext (path : List String) (key : String)
  | assign (path : List String) (key : String) (v : Toml)

namespace Members

def find? (ms : Members) (key : String) : Option Item :=
  (List.find? (fun m => m.1 == key) ms).map (·.2)

/-- Gives a key that is there another item. -/
def replace (ms : Members) (key : String) (item : Item) : Members :=
  ms.map fun m => if m.1 == key then (key, item) else m

/-- Changes the table at the end of a path. Missing tables on the way are made; a table with a
    header of its own cannot be entered by dots. -/
def change (dots : Bool) : List String → (Origin → Members → Option Members) → Origin → Members →
    Option Members
  | [], f, origin, ms => f origin ms
  | key :: path, f, _, ms =>
    match ms.find? key with
    | none =>
      let origin := if dots then Origin.dotted else .parent
      (change dots path f origin []).map fun inner => ms ++ [(key, .table origin inner)]
    | some (.table origin inner) =>
      if dots ∧ origin = .header then none
      else (change dots path f origin inner).map fun inner =>
        ms.replace key (.table origin inner)
    | some (.tables (last :: others)) =>
      (change dots path f .header last).map fun inner =>
        ms.replace key (.tables (inner :: others))
    | some _ => none

/-- Opens a table with a header. -/
def openTable (key : String) (ms : Members) : Option Members :=
  match ms.find? key with
  | none => some (ms ++ [(key, .table .header [])])
  | some (.table .parent inner) => some (ms.replace key (.table .header inner))
  | some _ => none

/-- Opens one more table of an array. -/
def openElement (key : String) (ms : Members) : Option Members :=
  match ms.find? key with
  | none => some (ms ++ [(key, .tables [[]])])
  | some (.tables elements) => some (ms.replace key (.tables ([] :: elements)))
  | some _ => none

/-- Gives a value to a key that has none. -/
def assignKey (key : String) (v : Toml) (ms : Members) : Option Members :=
  match ms.find? key with
  | none => some (ms ++ [(key, .value v)])
  | some _ => none

/-- Gives a value to a key with dots. Only tables that came to be by dots may be added to. -/
def assign (path : List String) (key : String) (v : Toml) (origin : Origin) (ms : Members) :
    Option Members :=
  change true path
    (fun origin ms =>
      if (origin == .dotted) == path.isEmpty then none else assignKey key v ms)
    origin ms

end Members

mutual

/-- The value that an item has when the document is complete. -/
def Item.toToml : Item → Toml
  | .value v => v
  | .table _ members => .table (membersToToml members)
  | .tables elements => .array (elementsToToml elements).reverse

def membersToToml : List (String × Item) → List (String × Toml)
  | [] => []
  | (k, item) :: rest => (k, item.toToml) :: membersToToml rest

def elementsToToml : List (List (String × Item)) → List Toml
  | [] => []
  | ms :: rest => .table (membersToToml ms) :: elementsToToml rest

end

/-- A document under way: its members and the path of the open table. -/
structure Draft where
  members : Members := []
  current : List String := []

/-- The document after one more statement. -/
def Draft.add (d : Draft) : Statement → Option Draft
  | .open path key => do
    let members ← Members.change false path (fun _ => Members.openTable key) .header d.members
    return { members, current := path ++ [key] }
  | .openNext path key => do
    let members ← Members.change false path (fun _ => Members.openElement key) .header d.members
    return { members, current := path ++ [key] }
  | .assign path key v => do
    let members ← Members.change false d.current (Members.assign path key v) .header d.members
    return { d with members }

/-- The members of the document that statements make. -/
def ofStatements (statements : List Statement) : Option (List (String × Toml)) := do
  let d ← statements.foldlM Draft.add {}
  return membersToToml d.members

end NetProbe.Toml
