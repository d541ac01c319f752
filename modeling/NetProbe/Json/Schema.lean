import NetProbe.Json.Error
set_option autoImplicit false

/-! # Records written as JSON

A schema says how a record is read from a JSON value and written as one. Reading starts from the
record of the defaults and lets each member that names a field set it; members that name none are
passed over, so a record with fields added later still reads. A list sets the fields in the order
of the schema. Writing leaves a field out when the schema says so. -/

namespace NetProbe.Json

/-- One field of a record `σ`. -/
structure Field (σ : Type) where
  name : String
  /-- Sets the field to what a value spells. -/
  set : Json → σ → Except Misfit σ
  /-- The value of the field, unless it is left out. -/
  get : σ → Option Json

/-- The fields of a record `σ` in order, its title in messages and its defaults. -/
structure Schema (σ : Type) where
  title : String
  fields : List (Field σ)
  defaults : σ

namespace Schema

variable {σ : Type}

/-- Lets one member of an object set its field. -/
def setMember (s : Schema σ) (r : σ) (m : String × Json) : Except Misfit σ :=
  match s.fields.find? fun f => f.name == m.1 with
  | some f => f.set m.2 r
  | none => .ok r

/-- Lets the items of a list set the fields in order. Items beyond the last field are left over. -/
def setItems : List (Field σ) → List Json → σ → Except Misfit σ
  | f :: fs, v :: vs, r =>
    match f.set v r with
    | .ok r => setItems fs vs r
    | .error e => .error e
  | _, _, r => .ok r

/-- The record that a value spells. -/
def decode (s : Schema σ) : Json → Except Misfit σ
  | .object members => members.foldlM s.setMember s.defaults
  | .array items =>
    match setItems s.fields items s.defaults with
    | .ok r =>
      if s.fields.length < items.length then
        .error (.wrongLength items.length "fewer elements in array")
      else .ok r
    | .error e => .error e
  | v => .error (.wrongKind (describe v) ("struct " ++ s.title))

/-- The value that spells a record. -/
def encode (s : Schema σ) (r : σ) : Json :=
  ofMembers (s.fields.filterMap fun f => (f.get r).map fun v => (f.name, v))

end Schema

/-! ## What a field may hold -/

def toText : Json → Except Misfit String
  | .string s => .ok s
  | v => .error (.wrongKind (describe v) "a string")

def toFlag : Json → Except Misfit Bool
  | .bool b => .ok b
  | v => .error (.wrongKind (describe v) "a boolean")

def toTexts : Json → Except Misfit (List String)
  | .array items => items.mapM toText
  | v => .error (.wrongKind (describe v) "a sequence")

/-- A whole number of at most `limit`, which messages call `expected`. -/
def toBounded (limit : Nat) (expected : String) : Json → Except Misfit Nat
  | .number (.whole n) =>
    if 0 ≤ n ∧ n ≤ limit then .ok n.toNat
    else .error (.outOfRange (describe (.number (.whole n))) expected)
  | v => .error (.wrongKind (describe v) expected)

/-- A value or `null`, which stands for nothing. -/
def toOptional {α : Type} (read : Json → Except Misfit α) : Json → Except Misfit (Option α)
  | .null => .ok none
  | v => (read v).map some

end NetProbe.Json
