import NetProbe.Json.Access
import NetProbe.Observation
import NetProbe.Text.Hex
set_option autoImplicit false

/-! # Values as JSON

An object with the name of the value's kind as `type` and one member for each part of the value.
Whether a connection is open is not known to the value itself, so the writer is told. Connections
and responses can be written but not read, since they stand for something that happened. -/

namespace NetProbe

namespace Endpoint

def members (e : Endpoint) : List (String × Json) :=
  [("address", .string e.address.text), ("domain", .string e.domain)]

def toJson (e : Endpoint) : Json := Json.ofMembers e.members

/-- The endpoint that an object describes, if its address can be read. -/
def ofJson? (j : Json) : Option Endpoint := do
  let address ← SocketAddress.parse? (j.textAt "address")
  return { address, domain := j.textAt "domain" }

end Endpoint

namespace Connection

def members (isOpen : Bool) (c : Connection) : List (String × Json) :=
  let protocol : List (String × Json) := match c.transport with
    | .tcp => []
    | .tls | .quic => [("negotiated_protocol", .string c.protocol)]
  [("address", .string c.address.text), ("domain", .string c.domain), ("open", .bool isOpen),
    ("trace", Json.ofInt c.trace)] ++ protocol

end Connection

namespace Response

def members (r : Response) : List (String × Json) :=
  [("address", .string r.address.text), ("domain", .string r.domain),
    ("network", .string r.network), ("negotiated_protocol", .string r.protocol),
    ("url", .string r.url), ("status_code", Json.ofNat r.status),
    ("headers", headersToJson r.headers), ("body_hex", .string (Text.hexOfBytes r.body)),
    ("body_is_truncated", .bool r.truncated)]

end Response

namespace Value

/-- The parts of a value. -/
def members (isOpen : SlotId → Bool) : Value → List (String × Json)
  | void | skip => []
  | lookup d => [("domain", .string d)]
  | resolved r =>
    [("domain", .string r.domain),
      ("addresses", .array (r.addresses.map fun ip => .string ip.text))]
  | endpoint e => e.members
  | endpoints es => [("endpoints", .array (es.map Endpoint.toJson))]
  | connection c => c.members (isOpen c.slot)
  | response r => r.members
  | error f => [("operation", .string f.operation), ("failure", .string f.failure)]
  | exception e => [("reason", .string e.reason)]

/-- The object for a value. -/
def toJson (isOpen : SlotId → Bool) (v : Value) : Json :=
  Json.ofMembers (("type", .string v.kind.name) :: v.members isOpen)

/-- The value that an object describes, if it describes one. -/
def ofJson? (j : Json) : Option Value :=
  let kind : Kind := ⟨j.textAt "type"⟩
  if kind = .void then some void
  else if kind = .lookupInput then some (lookup (j.textAt "domain"))
  else if kind = .lookupOutput then do
    let addresses ← (j.textsAt "addresses").mapM Ip.parse?
    return resolved { domain := j.textAt "domain", addresses }
  else if kind = .endpoint then (Endpoint.ofJson? j).map endpoint
  else if kind = .endpoints then ((j.itemsAt "endpoints").mapM Endpoint.ofJson?).map endpoints
  else if kind = .error then
    some (error { operation := j.textAt "operation", failure := j.textAt "failure" })
  else if kind = .exception then some (exception { reason := j.textAt "reason" })
  else if kind = .skip then some skip
  else none

end Value

end NetProbe
