set_option autoImplicit false

/-! # Base64

Bytes as letters, digits, plus signs and slashes, four for each three bytes, filled up with equals
signs. Reading passes over white space and asks for the equals signs only where some are given. -/

namespace NetProbe.Text.Base64

/-- The character for a value below sixty-four. -/
def digit (n : Nat) : Char :=
  Char.ofNat (
    if n < 26 then 65 + n
    else if n < 52 then 97 + (n - 26)
    else if n < 62 then 48 + (n - 52)
    else if n = 62 then 43
    else 47)

/-- The characters of bytes. -/
def encode : List UInt8 → List Char
  | [] => []
  | [a] =>
    let n := a.toNat * 16
    [digit (n / 64), digit (n % 64), '=', '=']
  | [a, b] =>
    let n := (a.toNat * 256 + b.toNat) * 4
    [digit (n / 4096), digit (n / 64 % 64), digit (n % 64), '=']
  | a :: b :: c :: rest =>
    let n := (a.toNat * 256 + b.toNat) * 256 + c.toNat
    digit (n / 262144) :: digit (n / 4096 % 64) :: digit (n / 64 % 64) :: digit (n % 64) ::
      encode rest

def encodeText (bytes : List UInt8) : String := String.ofList (encode bytes)

/-- What is wrong with a text that should be Base64. -/
inductive Fault where
  | character (b : UInt8)
  /-- An equals sign with more to come. -/
  | earlyPadding
  | padding
deriving DecidableEq, Repr

def Fault.message : Fault → String
  | character b => "InvalidCharacter(" ++ toString b.toNat ++ ")"
  | earlyPadding => "PrematurePadding"
  | padding => "InvalidPadding"

/-- What a byte of the text stands for. -/
inductive Code where
  | value (n : Nat)
  | pad
  | blank
  | invalid

def codeOf (b : UInt8) : Code :=
  if 65 ≤ b && b ≤ 90 then .value (b.toNat - 65)
  else if 97 ≤ b && b ≤ 122 then .value (b.toNat - 71)
  else if 48 ≤ b && b ≤ 57 then .value (b.toNat + 4)
  else if b = 43 then .value 62
  else if b = 47 then .value 63
  else if b = 61 then .pad
  else if b = 32 || b = 9 || b = 10 || b = 13 || b = 12 || b = 11 then .blank
  else .invalid

/-- The values and equals signs of a text, white space left out. -/
def codes : List UInt8 → Except Fault (List (Option Nat))
  | [] => .ok []
  | b :: rest =>
    match codeOf b with
    | .value n => (codes rest).map (some n :: ·)
    | .pad => (codes rest).map (none :: ·)
    | .blank => codes rest
    | .invalid => .error (.character b)

/-- The lowest bytes of a number, the highest first. -/
def bytesOf (a b c d count : Nat) : List UInt8 :=
  let n := ((a * 64 + b) * 64 + c) * 64 + d
  ([UInt8.ofNat (n / 65536), UInt8.ofNat (n / 256), UInt8.ofNat n] : List UInt8).take count

/-- The bytes of the values of a text. -/
def ofCodes : List (Option Nat) → Except Fault (List UInt8)
  | [] => .ok []
  | [some a, some b, some c, none] => .ok (bytesOf a b c 0 2)
  | [some a, some b, some c] => .ok (bytesOf a b c 0 2)
  | [some a, some b, none, none] => .ok (bytesOf a b 0 0 1)
  | [some a, some b] => .ok (bytesOf a b 0 0 1)
  | some a :: some b :: some c :: some d :: rest =>
    (ofCodes rest).map (bytesOf a b c d 3 ++ ·)
  | _ :: _ :: _ :: _ :: _ :: _ => .error .earlyPadding
  | _ => .error .padding

/-- The bytes that a text spells. -/
def decode (text : List UInt8) : Except Fault (List UInt8) := do
  ofCodes (← codes text)

end NetProbe.Text.Base64
