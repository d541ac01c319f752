import NetProbe.Run.Schedule
set_option autoImplicit false

/-! # A host without links

The network of a host that is connected to nothing. Connecting and sending fail at once, datagrams
of handshakes are lost, and no name can be looked up, except texts that spell addresses. -/

namespace NetProbe

/-- The address of version four that a text spells with one to four numbers, of which the last one
    fills all bytes that are left. -/
def ipv4OfParts? (text : String) : Option Ipv4 :=
  ((splitChars '.' text.toList).mapM Url.Host.number?).bind Url.Host.ipv4OfNumbers

/-- What looking up a name gives without asking anybody. -/
def lookupLiteral (domain : String) : Except IoError (List Ip) :=
  match Ip.parse? domain, ipv4OfParts? domain with
  | some ip, _ => .ok [ip]
  | none, some ip => .ok [.v4 ip]
  | none, none =>
    .error (.described .other
      "failed to lookup address information: Temporary failure in name resolution")

/-- The error of sending anything. -/
def unreachable : IoError := .system SystemError.networkUnreachable

/-- The network of a host without links. -/
def detached : (a : Attempt) → Option (Nat × a.Answer)
  | .connect _ => some (0, .error unreachable)
  | .lookup domain => some (0, lookupLiteral domain)
  | .ask _ _ => some (0, { datagrams := [], fault := unreachable })
  | .pause duration => some (duration, ())
  | .secure _ _ | .quic _ _ | .fetch _ _ | .fetchFrames _ _ => none

/-- Surroundings without links. -/
def Surroundings.detached : Surroundings where
  network := fun _ a => NetProbe.detached a

end NetProbe
