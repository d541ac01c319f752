import NetProbe.Net.Ip
set_option autoImplicit false

/-! # Internet addresses as text

Printing and reading of addresses. Version four is four decimal numbers without leading zeros.
Version six is eight hexadecimal groups, of which the first longest run of at least two zero
groups is written as a double colon; the last two groups may be read as an address of version
four, and are written so when the address embeds one. A port follows a colon, and an address of
version six with a port stands in brackets, with an optional interface number after a percent
sign. -/

namespace NetProbe

/-! ## Printing -/

def Ipv4.text (a : Ipv4) : String :=
  ".".intercalate (a.toBytes.map fun b => toString b.toNat)

/-- A group in hexadecimal, without leading zeros. -/
def groupText (g : Nat) : String :=
  String.ofList (Nat.toDigits 16 g)

/-- The length of the run of zeros at the front. -/
def zeroRun (groups : List Nat) : Nat :=
  (groups.takeWhile (· == 0)).length

/-- The start and the length of the first longest run of zeros, seen from position `i`. -/
def longestZeroRun (i : Nat) : List Nat → Nat × Nat
  | [] => (i, 0)
  | g :: rest =>
    let here := zeroRun (g :: rest)
    let later := longestZeroRun (i + 1) rest
    if later.2 ≤ here then (i, here) else later

def joinGroups (groups : List Nat) : String :=
  ":".intercalate (groups.map groupText)

/-- The groups of an address, with a double colon for the first longest run of zeros. -/
def Ipv6.groupsText (a : Ipv6) : String :=
  let groups := a.groups
  let (start, length) := longestZeroRun 0 groups
  if 1 < length then
    joinGroups (groups.take start) ++ "::" ++ joinGroups (groups.drop (start + length))
  else joinGroups groups

def Ipv6.text (a : Ipv6) : String :=
  if a.groups.take 6 == [0, 0, 0, 0, 0, 0xffff] then
    "::ffff:" ++ (Ipv4.ofBytes (a.toBytes.drop 12)).text
  else a.groupsText

def Ip.text : Ip → String
  | .v4 a => a.text
  | .v6 a => a.text

def SocketAddress.text (a : SocketAddress) : String :=
  match a.ip with
  | .v4 ip => ip.text ++ ":" ++ toString a.port.toNat
  | .v6 ip =>
    let scope := if a.scope = 0 then "" else "%" ++ toString a.scope.toNat
    "[" ++ ip.text ++ scope ++ "]:" ++ toString a.port.toNat

/-! ## Reading -/

namespace AddressText

/-- The value of a digit in the given base. -/
def digit? (base : Nat) (c : Char) : Option Nat :=
  let n :=
    if '0' ≤ c ∧ c ≤ '9' then c.toNat - 48
    else if 'a' ≤ c ∧ c ≤ 'z' then c.toNat - 87
    else if 'A' ≤ c ∧ c ≤ 'Z' then c.toNat - 55
    else base
  if n < base then some n else none

def digits (base : Nat) (cs : List Char) : List Nat :=
  (cs.takeWhile fun c => (digit? base c).isSome).filterMap (digit? base)

def afterDigits (base : Nat) (cs : List Char) : List Char :=
  cs.dropWhile fun c => (digit? base c).isSome

/-- A number of at least one digit and at most `most` digits. -/
def readNumber (base : Nat) (most : Option Nat) (leadingZero : Bool) (limit : Nat)
    (cs : List Char) : Option (Nat × List Char) :=
  let ds := digits base cs
  let n := ds.foldl (fun n d => n * base + d) 0
  if ds.isEmpty then none
  else if most.any (· < ds.length) then none
  else if !leadingZero && ds.head? == some 0 && 1 < ds.length then none
  else if limit < n then none
  else some (n, afterDigits base cs)

/-- What follows a given character. -/
def expect (c : Char) : List Char → Option (List Char)
  | d :: rest => if c == d then some rest else none
  | [] => none

/-- What follows the separator, which stands before every part but the first. -/
def separator (c : Char) (first : Bool) (cs : List Char) : Option (List Char) :=
  if first then some cs else expect c cs

/-- An address of version four at the front of a text. -/
def readIpv4 (cs : List Char) : Option (Ipv4 × List Char) := do
  let octet := readNumber 10 (some 3) false 255
  let (a, cs) ← octet cs
  let (b, cs) ← octet (← expect '.' cs)
  let (c, cs) ← octet (← expect '.' cs)
  let (d, cs) ← octet (← expect '.' cs)
  return (Ipv4.ofBytes [UInt8.ofNat a, UInt8.ofNat b, UInt8.ofNat c, UInt8.ofNat d], cs)

/-- The two groups of an address of version four. -/
def groupsOfIpv4 (a : Ipv4) : List Nat :=
  [a.value.toNat / 65536, a.value.toNat % 65536]

/-- At most `room` groups from the front of a text, whether the last two were an address of version
    four, and the rest. -/
def readGroups (first : Bool) : Nat → List Char → List Nat × Bool × List Char
  | 0, cs => ([], false, cs)
  | room + 1, cs =>
    let embedded :=
      if room = 0 then none
      else (separator ':' first cs).bind readIpv4
    match embedded with
    | some (a, rest) => (groupsOfIpv4 a, true, rest)
    | none =>
      match (separator ':' first cs).bind (readNumber 16 (some 4) true 65535) with
      | none => ([], false, cs)
      | some (g, rest) =>
        let (gs, four, rest) := readGroups false room rest
        (g :: gs, four, rest)

/-- An address of version six at the front of a text. -/
def readIpv6 (cs : List Char) : Option (Ipv6 × List Char) := do
  let (front, four, cs) := readGroups true 8 cs
  if front.length = 8 then return (Ipv6.ofGroups front, cs)
  if four then none
  let cs ← expect ':' (← expect ':' cs)
  let (back, _, cs) := readGroups true (7 - front.length) cs
  let between := List.replicate (8 - front.length - back.length) 0
  return (Ipv6.ofGroups (front ++ between ++ back), cs)

/-- A port after its colon. -/
def readPort (cs : List Char) : Option (UInt16 × List Char) := do
  let (n, cs) ← readNumber 10 none true 65535 (← expect ':' cs)
  return (UInt16.ofNat n, cs)

/-- The number of a network interface, if one is given. -/
def readScope (cs : List Char) : UInt32 × List Char :=
  match (expect '%' cs).bind (readNumber 10 none true 4294967295) with
  | some (n, rest) => (UInt32.ofNat n, rest)
  | none => (0, cs)

/-- An address of version four with a port. -/
def readSocket4 (cs : List Char) : Option (SocketAddress × List Char) := do
  let (ip, cs) ← readIpv4 cs
  let (port, cs) ← readPort cs
  return ({ ip := .v4 ip, port }, cs)

/-- An address of version six with a port. -/
def readSocket6 (cs : List Char) : Option (SocketAddress × List Char) := do
  let cs ← expect '[' cs
  let (ip, cs) ← readIpv6 cs
  let (scope, cs) := readScope cs
  let cs ← expect ']' cs
  let (port, cs) ← readPort cs
  return ({ ip := .v6 ip, port, scope }, cs)

/-- The value of a reading that took the whole text. -/
def whole {α : Type} : Option (α × List Char) → Option α
  | some (a, []) => some a
  | _ => none

end AddressText

open AddressText

/-- The address that a text spells. -/
def Ip.parse? (s : String) : Option Ip :=
  match readIpv4 s.toList with
  | some r => (whole (some r)).map .v4
  | none => (whole (readIpv6 s.toList)).map .v6

/-- The address and port that a text spells. -/
def SocketAddress.parse? (s : String) : Option SocketAddress :=
  match readSocket4 s.toList with
  | some r => whole (some r)
  | none => whole (readSocket6 s.toList)

end NetProbe
