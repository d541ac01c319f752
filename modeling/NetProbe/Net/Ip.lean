set_option autoImplicit false

/-! # Internet addresses

Addresses of both families as numbers, and an address with a port. `Ip.le` orders them: the fourth
version before the sixth, each by its number. -/

namespace NetProbe

/-- An address of version four. -/
structure Ipv4 where
  value : BitVec 32
deriving DecidableEq, Repr, Inhabited

/-- An address of version six. -/
structure Ipv6 where
  value : BitVec 128
deriving DecidableEq, Repr, Inhabited

/-- An address of either version. -/
inductive Ip where
  | v4 (address : Ipv4)
  | v6 (address : Ipv6)
deriving DecidableEq, Repr, Inhabited

/-- An address and a port. `scope` numbers the network interface of a link-local address of
    version six; it is zero everywhere else. -/
structure SocketAddress where
  ip : Ip
  port : UInt16
  scope : UInt32 := 0
deriving DecidableEq, Repr, Inhabited

/-- The number that bytes spell, the highest first. -/
def numberOfBytes (bytes : List UInt8) : Nat :=
  bytes.foldl (fun n b => n * 256 + b.toNat) 0

/-- The lowest `count` bytes of a number, the highest first. -/
def bytesOfNumber : Nat → Nat → List UInt8
  | 0, _ => []
  | count + 1, n => UInt8.ofNat (n / Nat.pow 256 count) :: bytesOfNumber count n

namespace Ipv4

/-- The address of four bytes. -/
def ofBytes (bytes : List UInt8) : Ipv4 :=
  ⟨BitVec.ofNat 32 (numberOfBytes bytes)⟩

def toBytes (a : Ipv4) : List UInt8 :=
  bytesOfNumber 4 a.value.toNat

end Ipv4

namespace Ipv6

/-- The address of sixteen bytes. -/
def ofBytes (bytes : List UInt8) : Ipv6 :=
  ⟨BitVec.ofNat 128 (numberOfBytes bytes)⟩

def toBytes (a : Ipv6) : List UInt8 :=
  bytesOfNumber 16 a.value.toNat

/-- The address of eight groups of sixteen bits. -/
def ofGroups (groups : List Nat) : Ipv6 :=
  ⟨BitVec.ofNat 128 (groups.foldl (fun n g => n * 65536 + g) 0)⟩

/-- The eight groups of sixteen bits. -/
def groups (a : Ipv6) : List Nat :=
  (List.range 8).map fun i => a.value.toNat / Nat.pow 65536 (7 - i) % 65536

end Ipv6

namespace Ip

/-- Version four before version six, each by its number. -/
def le : Ip → Ip → Bool
  | .v4 a, .v4 b => a.value.toNat ≤ b.value.toNat
  | .v4 _, .v6 _ => true
  | .v6 _, .v4 _ => false
  | .v6 a, .v6 b => a.value.toNat ≤ b.value.toNat

/-- Puts an address into an ascending list, unless it is there. -/
def insert (a : Ip) : List Ip → List Ip
  | [] => [a]
  | b :: rest => if a = b then b :: rest else if le a b then a :: b :: rest else b :: insert a rest

/-- The addresses in ascending order, each once. -/
def ascending (as : List Ip) : List Ip :=
  as.foldl (fun acc a => insert a acc) []

def isV6 : Ip → Bool
  | .v4 _ => false
  | .v6 _ => true

end Ip

end NetProbe
