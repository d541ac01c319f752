set_option autoImplicit false

/-! # TOML documents as values

The values of a TOML document. A configuration asks for texts and whole numbers; the other scalars
are kept as they are spelled. -/

namespace NetProbe

inductive Toml where
  | string (s : String)
  | integer (n : Int)
  | bool (b : Bool)
  /-- A number with a fraction or an exponent, an infinity or no number. -/
  | float (spelling : String)
  /-- A date, a time of day or both. -/
  | moment (spelling : String)
  | array (items : List Toml)
  | table (members : List (String × Toml))
deriving Repr, Inhabited

namespace Toml

/-- The value of a key in a list of members. -/
def find? (key : String) (members : List (String × Toml)) : Option Toml :=
  (members.find? fun m => m.1 == key).map (·.2)

/-- Whether a character may stand in a key without quotes. -/
def isKeyChar (c : Char) : Bool :=
  ('a' ≤ c && c ≤ 'z') || ('A' ≤ c && c ≤ 'Z') || ('0' ≤ c && c ≤ '9') || c == '_' || c == '-'

/-- Whether a character is a control character other than the tab. -/
def isControl (c : Char) : Bool :=
  (c.toNat < 0x20 && c != '\t') || c.toNat == 0x7f

end Toml

end NetProbe
