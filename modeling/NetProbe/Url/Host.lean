import NetProbe.Net.Domain
import NetProbe.Text.Part
import NetProbe.Url.Percent
set_option autoImplicit false

/-! # Hosts of URLs

A host is a name, an address of version six in brackets, or an address of version four, which may
be written with fewer than four numbers and with octal and hexadecimal ones: whatever ends in a
number is read so. Names are ASCII in lower case. Names in other scripts, which a library with the
tables of Unicode converts to ASCII, are refused by `Host.parse`. -/

namespace NetProbe.Url

/-- What is wrong with a URL. -/
inductive Fault where
  | scheme
  | emptyHost
  | internationalName
  | port
  | ipv4
  | ipv6
deriving DecidableEq, Repr

def Fault.message : Fault → String
  | scheme => "unsupported scheme"
  | emptyHost => "empty host"
  | internationalName => "invalid international domain name"
  | port => "invalid port number"
  | ipv4 => "invalid IPv4 address"
  | ipv6 => "invalid IPv6 address"

inductive Host where
  | name (text : String)
  | ipv4 (address : Ipv4)
  | ipv6 (address : Ipv6)
deriving DecidableEq, Repr

namespace Host

def text : Host → String
  | name t => t
  | ipv4 a => a.text
  | ipv6 a => "[" ++ a.groupsText ++ "]"

/-- Characters that names do not have. -/
def isForbidden (c : Char) : Bool :=
  isHidden c ||
    [' ', '#', '/', ':', '<', '>', '?', '@', '[', '\\', ']', '^', '|', '%'].contains c

/-! ## Addresses of version four -/

/-- The base of a number and its digits. -/
def baseOf : List Char → Nat × List Char
  | '0' :: 'x' :: rest => (16, rest)
  | '0' :: 'X' :: rest => (16, rest)
  | '0' :: c :: rest => (8, c :: rest)
  | cs => (10, cs)

/-- A number of an address. -/
def number? (cs : List Char) : Option Nat :=
  if cs.isEmpty then none
  else
    let (base, digits) := baseOf cs
    (digits.mapM (AddressText.digit? base)).map fun ds => ds.foldl (fun n d => n * base + d) 0

/-- The parts between the dots, without an empty one at the end. -/
def numberParts (cs : List Char) : List (List Char) :=
  let parts := splitChars '.' cs
  if parts.getLast? = some [] then parts.dropLast else parts

/-- Whether a name is read as an address. -/
def endsInNumber (cs : List Char) : Bool :=
  (numberParts cs).getLast?.any fun last =>
    (!last.isEmpty && last.all Char.isDigit) || (number? last).isSome

/-- The address that one to four numbers spell; the last one fills all bytes that are left. -/
def ipv4OfNumbers (ns : List Nat) : Option Ipv4 :=
  match ns.getLast? with
  | none => none
  | some last =>
    let front := ns.dropLast
    if 3 < front.length ∨ front.any (255 < ·) ∨ Nat.pow 256 (4 - front.length) ≤ last then none
    else
      let high := front.foldl (fun n d => n * 256 + d) 0
      some ⟨BitVec.ofNat 32 (high * Nat.pow 256 (4 - front.length) + last)⟩

/-! ## Reading -/

/-- The host that a text between the slashes and the port spells. -/
def parse (cs : List Char) : Except Fault Host :=
  match cs with
  | '[' :: rest =>
    if rest.getLast? = some ']' then
      match AddressText.whole (AddressText.readIpv6 rest.dropLast) with
      | some a => .ok (.ipv6 a)
      | none => .error .ipv6
    else .error .ipv6
  | cs =>
    match Text.ofBytes? (decode (Text.toBytes (String.ofList cs))) with
    | none => .error .internationalName
    | some decoded =>
      let label := decoded.toList.map Text.lowerAscii
      if label.any isForbidden then .error .internationalName
      else if label.isEmpty then .error .emptyHost
      else if endsInNumber label then
        match ((numberParts label).mapM number?).bind ipv4OfNumbers with
        | some a => .ok (.ipv4 a)
        | none => .error .ipv4
      else .ok (.name (String.ofList label))

end Host

end NetProbe.Url
