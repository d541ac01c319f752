import NetProbe.Json.Writer
set_option autoImplicit false

/-! # Looking into JSON values

What a value is, or what stands under a key of an object, for readers that take anything they do
not find for empty: no text is the empty one, no number is zero, no list has no items. -/

namespace NetProbe.Json

def text? : Json → Option String
  | .string s => some s
  | _ => none

/-- A whole number that is not negative; one below zero counts as zero. -/
def nat? : Json → Option Nat
  | .number (.whole n) => some n.toNat
  | _ => none

def items : Json → List Json
  | .array xs => xs
  | _ => []

def members : Json → List (String × Json)
  | .object ms => ms
  | _ => []

/-- A text itself, or the compact form of any other value. -/
def source : Json → String
  | .string s => s
  | j => j.compact

/-! ## Members -/

/-- What stands under a key; `null` if nothing does. -/
def member (key : String) (j : Json) : Json := (j.get? key).getD .null

def textAt (key : String) (j : Json) : String := (j.member key).text?.getD ""

def natAt (key : String) (j : Json) : Nat := (j.member key).nat?.getD 0

/-- Whether `true` stands under a key. -/
def flagAt (key : String) (j : Json) : Bool :=
  match j.member key with
  | .bool b => b
  | _ => false

def itemsAt (key : String) (j : Json) : List Json := (j.member key).items

/-- The items under a key as texts, anything else as the empty text. -/
def textsAt (key : String) (j : Json) : List String :=
  (j.itemsAt key).map fun i => i.text?.getD ""

/-- The source under a key; empty if the key is missing. -/
def sourceAt (key : String) (j : Json) : String := ((j.get? key).map source).getD ""

end NetProbe.Json
