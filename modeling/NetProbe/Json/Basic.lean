import NetProbe.Decimal.Binary
set_option autoImplicit false

/-! # JSON values

The data model of JSON texts. An object keeps its members in ascending order of their keys with no
key twice, as `Members.insert` builds them; whole numbers of sixty-four bits are exact and every
other number is a binary fraction. -/

namespace NetProbe

/-- A JSON number: a whole number in the range of sixty-four bits, signed or unsigned, or a binary
    fraction. -/
inductive JsonNumber where
  | whole (n : Int)
  | fraction (x : Binary)
deriving DecidableEq, Repr

inductive Json where
  | null
  | bool (b : Bool)
  | number (n : JsonNumber)
  | string (s : String)
  | array (items : List Json)
  | object (members : List (String × Json))
deriving Repr, Inhabited

namespace Json

mutual

/-- Equality of values, with fractions compared as numbers. -/
def same : Json → Json → Bool
  | .null, .null => true
  | .bool a, .bool b => a == b
  | .number (.whole a), .number (.whole b) => a == b
  | .number (.fraction a), .number (.fraction b) => a.sameNumber b
  | .string a, .string b => a == b
  | .array a, .array b => sameItems a b
  | .object a, .object b => sameMembers a b
  | _, _ => false

def sameItems : List Json → List Json → Bool
  | [], [] => true
  | a :: as, b :: bs => same a b && sameItems as bs
  | _, _ => false

def sameMembers : List (String × Json) → List (String × Json) → Bool
  | [], [] => true
  | (k, a) :: as, (l, b) :: bs => k == l && same a b && sameMembers as bs
  | _, _ => false

end

/-- Puts a member into an ordered list of members; the last value given to a key stays. -/
def insert (key : String) (value : Json) : List (String × Json) → List (String × Json)
  | [] => [(key, value)]
  | (k, v) :: rest =>
    if key < k then (key, value) :: (k, v) :: rest
    else if key = k then (key, value) :: rest
    else (k, v) :: insert key value rest

/-- The object with the given members, later ones replacing earlier ones of the same key. -/
def ofMembers (members : List (String × Json)) : Json :=
  .object (members.foldl (fun acc m => insert m.1 m.2 acc) [])

/-- The member of that key, if the value is an object that has one. -/
def get? (key : String) : Json → Option Json
  | .object members => (members.find? fun m => m.1 == key).map (·.2)
  | _ => none

def ofNat (n : Nat) : Json := .number (.whole n)

/-- A whole number. -/
def ofInt (n : Int) : Json := .number (.whole n)

/-- The value of an optional text: nothing is `null`. -/
def ofOption : Option String → Json
  | none => .null
  | some s => .string s

/-- The array of the values that a function gives. -/
def ofList {α : Type} (f : α → Json) (xs : List α) : Json := .array (xs.map f)

/-- The array of some texts. -/
def ofTexts (xs : List String) : Json := ofList .string xs

/-- The value that a function gives, or `null` for nothing. -/
def ofMaybe {α : Type} (f : α → Json) : Option α → Json
  | none => .null
  | some a => f a

def isNull : Json → Bool
  | .null => true
  | _ => false

end Json

end NetProbe
