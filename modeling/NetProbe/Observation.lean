import NetProbe.Value
set_option autoImplicit false

/-! # Observations

What the operations record about their attempts, in six lists: events, lookups, requests, and
connections over TCP, TLS and QUIC. Every record belongs to the transaction of a trace. -/

namespace NetProbe

open Json (ofMembers ofOption ofNat ofInt)

/-- A note that something happened. -/
structure NetworkEvent where
  operation : String
  failure : Option String := none
  trace : TraceId
deriving DecidableEq, Repr

/-- An address that a lookup gave, with the seconds for which it may be kept. -/
structure LookupAnswer where
  address : Ip
  ttl : Option UInt32 := none
deriving DecidableEq, Repr

/-- A lookup of one type of records. -/
structure LookupRecord where
  answers : List LookupAnswer
  engine : String
  failure : Option String
  hostname : String
  queryType : String
  resolver : String
  trace : TraceId
deriving DecidableEq, Repr

/-- An attempt to connect over TCP. -/
structure ConnectRecord where
  address : Ip
  port : UInt16
  failure : Option String
  trace : TraceId
deriving DecidableEq, Repr

/-- A handshake of TLS or QUIC. -/
structure HandshakeRecord where
  network : String
  address : String
  cipherSuite : String := ""
  failure : Option String
  protocol : String := ""
  skipVerify : Bool
  /-- The certificates of the peer in Base64. -/
  certificates : List String := []
  serverName : String
  tlsVersion : String := ""
  trace : TraceId
deriving DecidableEq, Repr

/-- A request as it was planned. -/
structure RequestRecord where
  headers : List (String × String)
  method : String
  url : String
deriving DecidableEq, Repr

/-- A response as it was read. -/
structure ResponseRecord where
  body : String
  truncated : Bool
  status : Nat
  headers : List (String × String)
deriving DecidableEq, Repr

/-- A request and perhaps the response to it. -/
structure ExchangeRecord where
  network : String
  address : String
  protocol : String
  failure : Option String
  request : RequestRecord
  response : Option ResponseRecord
  trace : TraceId
deriving DecidableEq, Repr

structure Observations where
  events : List NetworkEvent := []
  lookups : List LookupRecord := []
  requests : List ExchangeRecord := []
  connects : List ConnectRecord := []
  tlsHandshakes : List HandshakeRecord := []
  quicHandshakes : List HandshakeRecord := []
deriving DecidableEq, Repr

namespace Observations

/-- The number of records of any kind. -/
def size (o : Observations) : Nat :=
  o.events.length + o.lookups.length + o.requests.length + o.connects.length +
    o.tlsHandshakes.length + o.quicHandshakes.length

def isEmpty (o : Observations) : Bool :=
  o.events.isEmpty && o.lookups.isEmpty && o.requests.isEmpty && o.connects.isEmpty &&
    o.tlsHandshakes.isEmpty && o.quicHandshakes.isEmpty

/-- The records of both, kind by kind. -/
def append (a b : Observations) : Observations where
  events := a.events ++ b.events
  lookups := a.lookups ++ b.lookups
  requests := a.requests ++ b.requests
  connects := a.connects ++ b.connects
  tlsHandshakes := a.tlsHandshakes ++ b.tlsHandshakes
  quicHandshakes := a.quicHandshakes ++ b.quicHandshakes

instance : Append Observations := ⟨append⟩

/-- The records of all groups as one. -/
def reduce (groups : List Observations) : Observations :=
  groups.foldl append {}

end Observations

/-! ## Records as JSON -/

def headersToJson (headers : List (String × String)) : Json :=
  .array (headers.map fun h => .array [.string h.1, .string h.2])

def NetworkEvent.toJson (e : NetworkEvent) : Json :=
  ofMembers [("failure", ofOption e.failure), ("operation", .string e.operation),
    ("transaction_id", ofInt e.trace)]

def LookupAnswer.toJson (a : LookupAnswer) : Json :=
  let ttl : Json := match a.ttl with
    | some n => ofNat n.toNat
    | none => .null
  match a.address with
  | .v4 ip => ofMembers [("answer_type", .string "A"), ("ipv4", .string ip.text), ("ttl", ttl)]
  | .v6 ip => ofMembers [("answer_type", .string "AAAA"), ("ipv6", .string ip.text), ("ttl", ttl)]

def LookupRecord.toJson (r : LookupRecord) : Json :=
  ofMembers [("answers", .array (r.answers.map LookupAnswer.toJson)),
    ("engine", .string r.engine), ("failure", ofOption r.failure),
    ("hostname", .string r.hostname), ("query_type", .string r.queryType),
    ("resolver_address", .string r.resolver), ("transaction_id", ofInt r.trace)]

def ConnectRecord.toJson (r : ConnectRecord) : Json :=
  ofMembers [("ip", .string r.address.text), ("port", ofNat r.port.toNat),
    ("status", ofMembers [("blocked", .null), ("failure", ofOption r.failure),
      ("success", .bool r.failure.isNone)]),
    ("transaction_id", ofInt r.trace)]

def HandshakeRecord.toJson (r : HandshakeRecord) : Json :=
  ofMembers [("network", .string r.network), ("address", .string r.address),
    ("cipher_suite", .string r.cipherSuite), ("failure", ofOption r.failure),
    ("negotiated_protocol", .string r.protocol), ("no_tls_verify", .bool r.skipVerify),
    ("peer_certificates", .array (r.certificates.map .string)),
    ("server_name", .string r.serverName), ("tls_version", .string r.tlsVersion),
    ("transaction_id", ofInt r.trace)]

def RequestRecord.toJson (r : RequestRecord) : Json :=
  ofMembers [("headers", headersToJson r.headers), ("method", .string r.method),
    ("url", .string r.url)]

def ResponseRecord.toJson (r : ResponseRecord) : Json :=
  ofMembers [("body", .string r.body), ("body_is_truncated", .bool r.truncated),
    ("code", ofNat r.status), ("headers", headersToJson r.headers)]

def ExchangeRecord.toJson (r : ExchangeRecord) : Json :=
  let response := match r.response with
    | some s => s.toJson
    | none => .null
  ofMembers [("network", .string r.network), ("address", .string r.address),
    ("alpn", .string r.protocol), ("failure", ofOption r.failure),
    ("request", r.request.toJson), ("response", response), ("transaction_id", ofInt r.trace)]

def Observations.toJson (o : Observations) : Json :=
  ofMembers [("network_events", .array (o.events.map NetworkEvent.toJson)),
    ("queries", .array (o.lookups.map LookupRecord.toJson)),
    ("requests", .array (o.requests.map ExchangeRecord.toJson)),
    ("tcp_connect", .array (o.connects.map ConnectRecord.toJson)),
    ("tls_handshakes", .array (o.tlsHandshakes.map HandshakeRecord.toJson)),
    ("quic_handshakes", .array (o.quicHandshakes.map HandshakeRecord.toJson))]

/-! ## Records by their transactions -/

namespace Observations

/-- The traces of all records. -/
def traces (o : Observations) : List TraceId :=
  o.events.map (·.trace) ++ o.lookups.map (·.trace) ++ o.requests.map (·.trace) ++
    o.connects.map (·.trace) ++ o.tlsHandshakes.map (·.trace) ++ o.quicHandshakes.map (·.trace)

/-- The records that belong to one trace. -/
def ofTrace (o : Observations) (trace : TraceId) : Observations where
  events := o.events.filter (·.trace = trace)
  lookups := o.lookups.filter (·.trace = trace)
  requests := o.requests.filter (·.trace = trace)
  connects := o.connects.filter (·.trace = trace)
  tlsHandshakes := o.tlsHandshakes.filter (·.trace = trace)
  quicHandshakes := o.quicHandshakes.filter (·.trace = trace)

/-- The records as one group for each transaction that has any. -/
def byTransaction (o : Observations) : List Observations :=
  o.traces.eraseDups.map o.ofTrace

end Observations

end NetProbe
