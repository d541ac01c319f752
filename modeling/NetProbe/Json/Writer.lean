import NetProbe.Json.Basic
import NetProbe.Decimal.Shortest
import NetProbe.Text.Quoted
set_option autoImplicit false

/-! # Writing JSON

A value as text, on one line or with one member or item a line. Strings escape quotes,
backslashes and control characters only; a fraction has the fewest digits that read back, with a
point in it from `10 ^ -5` up to, not including, `10 ^ 16`, and an exponent outside. -/

namespace NetProbe.Json

/-- The four hexadecimal digits of a control character. -/
def fourDigits (n : Nat) : List Char :=
  [Text.hexDigit (n / 4096 % 16), Text.hexDigit (n / 256 % 16), Text.hexDigit (n / 16 % 16),
    Text.hexDigit (n % 16)]

/-- One character of a string as it is written. -/
def escapeChar (c : Char) : List Char :=
  if c == '"' then ['\\', '"']
  else if c == '\\' then ['\\', '\\']
  else if c == '\x08' then ['\\', 'b']
  else if c == '\x0c' then ['\\', 'f']
  else if c == '\n' then ['\\', 'n']
  else if c == '\r' then ['\\', 'r']
  else if c == '\t' then ['\\', 't']
  else if c.toNat < 0x20 then '\\' :: 'u' :: fourDigits c.toNat
  else [c]

/-- A string between its quotes. -/
def writeString (s : String) : List Char :=
  '"' :: s.toList.flatMap escapeChar ++ ['"']

/-- The decimal digits of a natural number. -/
def writeNat (n : Nat) : List Char :=
  Nat.toDigits 10 n

def writeInt (n : Int) : List Char :=
  if n < 0 then '-' :: writeNat n.natAbs else writeNat n.natAbs

/-- How a fraction is laid out: a decimal point for values from `10 ^ (least - 1)` up to, not
    including, `10 ^ most`, otherwise one digit before the point and an exponent. -/
structure FractionLayout where
  least : Int
  most : Int

/-- JSON fractions have a point from `0.00001` to `9999999999999999.0`. -/
def fractionLayout : FractionLayout := ⟨-4, 16⟩

def zeros (n : Nat) : List Char := List.replicate n '0'

/-- A decimal with a point or with an exponent, as the layout says. -/
def layOut (layout : FractionLayout) (d : Decimal) : List Char :=
  let ds := writeNat d.digits
  let point : Int := ds.length + d.exponent
  if 0 ≤ d.exponent && point ≤ layout.most then
    ds ++ zeros d.exponent.toNat ++ ['.', '0']
  else if 0 < point && point ≤ layout.most then
    ds.take point.toNat ++ '.' :: ds.drop point.toNat
  else if layout.least ≤ point && point ≤ 0 then
    '0' :: '.' :: zeros (-point).toNat ++ ds
  else
    let e := point - 1
    let mantissa := match ds with
      | [] => []
      | [c] => [c]
      | c :: rest => c :: '.' :: rest
    mantissa ++ 'e' :: (if e < 0 then '-' else '+') :: writeNat e.natAbs

/-- A fraction with the fewest digits that read back. -/
def writeFraction (x : Binary) : List Char :=
  let sign := if x.isNegative then ['-'] else []
  if x.significand = 0 then sign ++ ['0', '.', '0']
  else sign ++ layOut fractionLayout (Decimal.shortest x)

def writeNumber : JsonNumber → List Char
  | .whole n => writeInt n
  | .fraction x => writeFraction x

mutual

/-- The characters of a value on one line. -/
def write : Json → List Char
  | .null => ['n', 'u', 'l', 'l']
  | .bool true => ['t', 'r', 'u', 'e']
  | .bool false => ['f', 'a', 'l', 's', 'e']
  | .number n => writeNumber n
  | .string s => writeString s
  | .array items => '[' :: writeItems items ++ [']']
  | .object members => '{' :: writeMembers members ++ ['}']

def writeItems : List Json → List Char
  | [] => []
  | [v] => write v
  | v :: rest => write v ++ ',' :: writeItems rest

def writeMembers : List (String × Json) → List Char
  | [] => []
  | [(k, v)] => writeString k ++ ':' :: write v
  | (k, v) :: rest => writeString k ++ ':' :: write v ++ ',' :: writeMembers rest

end

/-- A value on one line. -/
def compact (v : Json) : String :=
  String.ofList (write v)

/-- A new line and two spaces for each level of nesting. -/
def newLine (level : Nat) : List Char :=
  '\n' :: List.replicate (2 * level) ' '

mutual

/-- The characters of a value with one member or item a line, for a value at the given level. -/
def writePretty (level : Nat) : Json → List Char
  | .array [] => ['[', ']']
  | .array items => '[' :: newLine (level + 1) ++ prettyItems (level + 1) items ++
      newLine level ++ [']']
  | .object [] => ['{', '}']
  | .object members => '{' :: newLine (level + 1) ++ prettyMembers (level + 1) members ++
      newLine level ++ ['}']
  | .null => ['n', 'u', 'l', 'l']
  | .bool true => ['t', 'r', 'u', 'e']
  | .bool false => ['f', 'a', 'l', 's', 'e']
  | .number n => writeNumber n
  | .string s => writeString s

def prettyItems (level : Nat) : List Json → List Char
  | [] => []
  | [v] => writePretty level v
  | v :: rest => writePretty level v ++ ',' :: newLine level ++ prettyItems level rest

def prettyMembers (level : Nat) : List (String × Json) → List Char
  | [] => []
  | [(k, v)] => writeString k ++ ':' :: ' ' :: writePretty level v
  | (k, v) :: rest => writeString k ++ ':' :: ' ' :: writePretty level v ++
      ',' :: newLine level ++ prettyMembers level rest

end

/-- A value with one member or item a line. -/
def pretty (v : Json) : String :=
  String.ofList (writePretty 0 v)

end NetProbe.Json
