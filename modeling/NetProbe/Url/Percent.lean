import NetProbe.Text.Quoted
import NetProbe.Text.Utf8
set_option autoImplicit false

/-! # Percent-encoding

In a URL a byte can be written as a percent sign and two hexadecimal digits. Each part of a URL has
its own set of characters that are written so; control characters and everything that is not ASCII
are in all of them. -/

namespace NetProbe.Url

/-- A hexadecimal digit in upper case. -/
def upperHexDigit (n : Nat) : Char :=
  if n < 10 then Char.ofNat (48 + n) else Char.ofNat (55 + n)

/-- Characters that no part of a URL shows as they are. -/
def isHidden (c : Char) : Bool :=
  c.toNat < 0x20 || 0x7e < c.toNat

/-- Characters that a query writes as bytes. -/
def isSpecialInQuery (c : Char) : Bool :=
  isHidden c || [' ', '"', '#', '<', '>', '\''].contains c

/-- Characters that a fragment writes as bytes. -/
def isSpecialInFragment (c : Char) : Bool :=
  isHidden c || [' ', '"', '<', '>', '\x60'].contains c

/-- Characters that a path writes as bytes. -/
def isSpecialInPath (c : Char) : Bool :=
  isSpecialInFragment c || ['#', '?', '^', '\x7b', '\x7d'].contains c

/-- Characters that names and passwords write as bytes. -/
def isSpecialInUser (c : Char) : Bool :=
  isSpecialInPath c || ['/', ':', ';', '=', '@', '[', '\\', ']', '|'].contains c

def encodeByte (b : UInt8) : List Char :=
  ['%', upperHexDigit (b.toNat / 16), upperHexDigit (b.toNat % 16)]

/-- Characters with the special ones among them written as bytes. -/
def encode (isSpecial : Char → Bool) (cs : List Char) : List Char :=
  cs.flatMap fun c =>
    if isSpecial c then (String.singleton c).toUTF8.toList.flatMap encodeByte else [c]

/-- The value of a hexadecimal digit. -/
def hexValue? (b : UInt8) : Option UInt8 :=
  if 0x30 ≤ b && b ≤ 0x39 then some (b - 0x30)
  else if 0x41 ≤ b && b ≤ 0x46 then some (b - 0x37)
  else if 0x61 ≤ b && b ≤ 0x66 then some (b - 0x57)
  else none

/-- The bytes that are meant; a percent sign without two digits stands for itself. -/
def decode : List UInt8 → List UInt8
  | 0x25 :: a :: b :: rest =>
    match hexValue? a, hexValue? b with
    | some x, some y => (x * 16 + y) :: decode rest
    | _, _ => 0x25 :: decode (a :: b :: rest)
  | b :: rest => b :: decode rest
  | [] => []

end NetProbe.Url
