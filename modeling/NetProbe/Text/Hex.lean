import NetProbe.Text.Quoted
set_option autoImplicit false

/-! # Bytes as hexadecimal text

Two digits a byte, the upper half first; letters are written in lower case and read in both. -/

namespace NetProbe.Text

/-- The two digits of a byte. -/
def hexByte (b : UInt8) : List Char :=
  [hexDigit (b.toNat / 16), hexDigit (b.toNat % 16)]

/-- The digits of all bytes. -/
def hexOfBytes (bytes : List UInt8) : String :=
  String.ofList (bytes.flatMap hexByte)

/-- The value of a hexadecimal digit. -/
def hexValue? (c : Char) : Option Nat :=
  if '0' ≤ c ∧ c ≤ '9' then some (c.toNat - '0'.toNat)
  else if 'a' ≤ c ∧ c ≤ 'f' then some (c.toNat - 'a'.toNat + 10)
  else if 'A' ≤ c ∧ c ≤ 'F' then some (c.toNat - 'A'.toNat + 10)
  else none

/-- The bytes that pairs of digits spell, if the text holds nothing else. -/
def bytesOfHex? : List Char → Option (List UInt8)
  | [] => some []
  | a :: b :: rest => do
    let high ← hexValue? a
    let low ← hexValue? b
    let bytes ← bytesOfHex? rest
    return UInt8.ofNat (16 * high + low) :: bytes
  | [_] => none

end NetProbe.Text
