set_option autoImplicit false

/-! # Bytes as text

Reading UTF-8, strictly or with a replacement character for each maximal part of a character that
is not completed. -/

namespace NetProbe.Text

/-- The number of bytes that characters take. -/
def byteCount (cs : List Char) : Nat :=
  cs.foldl (fun n c => n + c.utf8Size) 0

/-- The character that stands for bytes that are no character. -/
def replacement : Char := '\ufffd'

/-- How many bytes a character takes that starts with a byte, and the range of its second byte. -/
def leadByte (b : UInt8) : Option (Nat × UInt8 × UInt8) :=
  if b < 0x80 then some (1, 0, 0)
  else if b < 0xc2 then none
  else if b < 0xe0 then some (2, 0x80, 0xbf)
  else if b = 0xe0 then some (3, 0xa0, 0xbf)
  else if b = 0xed then some (3, 0x80, 0x9f)
  else if b < 0xf0 then some (3, 0x80, 0xbf)
  else if b = 0xf0 then some (4, 0x90, 0xbf)
  else if b < 0xf4 then some (4, 0x80, 0xbf)
  else if b = 0xf4 then some (4, 0x80, 0x8f)
  else none

def isContinuation (b : UInt8) : Bool := 0x80 ≤ b && b ≤ 0xbf

/-- The bits that a first byte gives to a character of so many bytes. -/
def leadBits (length : Nat) (b : UInt8) : Nat :=
  if length = 1 then b.toNat
  else if length = 2 then b.toNat % 32
  else if length = 3 then b.toNat % 16
  else b.toNat % 8

/-- The number of bytes at the front that make a character or the start of one, at least one, and
    the character, if it is complete. -/
def nextChar (b : UInt8) (rest : List UInt8) : Nat × Option Char :=
  match leadByte b with
  | none => (1, none)
  | some (1, _, _) => (1, some (Char.ofNat b.toNat))
  | some (length, low, high) =>
    match rest with
    | [] => (1, none)
    | c :: more =>
      if c < low || high < c then (1, none)
      else
        let tail := (more.take (length - 2)).takeWhile isContinuation
        if tail.length = length - 2 then
          let n := (c :: tail).foldl (fun n d => n * 64 + d.toNat % 64) (leadBits length b)
          (length, some (Char.ofNat n))
        else (2 + tail.length, none)

/-- The characters of bytes, the invalid parts replaced; `skip` bytes at the front belong to a
    character that was read. -/
def decodeLossy (skip : Nat) : List UInt8 → List Char
  | [] => []
  | b :: rest =>
    match skip with
    | n + 1 => decodeLossy n rest
    | 0 =>
      let (length, c) := nextChar b rest
      c.getD replacement :: decodeLossy (length - 1) rest

/-- The text of bytes, invalid parts replaced. -/
def ofBytesLossy (bytes : List UInt8) : String :=
  String.ofList (decodeLossy 0 bytes)

/-- The characters of bytes, if all of them are. -/
def decode? (skip : Nat) : List UInt8 → Option (List Char)
  | [] => some []
  | b :: rest =>
    match skip with
    | n + 1 => decode? n rest
    | 0 =>
      match nextChar b rest with
      | (_, none) => none
      | (length, some c) => (decode? (length - 1) rest).map (c :: ·)

/-- The text of bytes that are UTF-8. -/
def ofBytes? (bytes : List UInt8) : Option String :=
  (decode? 0 bytes).map String.ofList

/-- The bytes of a text. -/
def toBytes (s : String) : List UInt8 :=
  s.toUTF8.toList

end NetProbe.Text
