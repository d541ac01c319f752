import NetProbe.Measurement.Connect
import NetProbe.Measurement.Handshake
import NetProbe.Measurement.Lookup
import NetProbe.Measurement.Transaction
set_option autoImplicit false

/-! # Operations

What a program means: operations take a value to a value, by an activity. The leaves measure or
make values; the others put operations in sequence, or have several of them run at the same time
and reduce their values to one. Operations that take values of one kind pass sentinels on as they
are and answer values of other kinds with an exception. -/

namespace NetProbe

/-! ## Leaves -/

/-- An operation without operations in it that takes values of one kind. -/
inductive Leaf where
  | domainName (domain : String)
  | makeEndpoints (port : UInt16)
  | lookupSystem
  | lookupUdp (resolver : Resolver)
  | lookupStatic (addresses : List Ip)
  | tcpConnect
  | tlsHandshake (options : HandshakeOptions)
  | quicHandshake (options : HandshakeOptions)
  | httpTransaction (arguments : HttpArguments)
deriving DecidableEq, Repr

/-- Endpoints on a port, one for each address, in the order of addresses. -/
def endpointsOf (port : UInt16) (r : Resolved) : List Endpoint :=
  (Ip.ascending r.addresses).map fun ip => { address := { ip, port }, domain := r.domain }

/-- Passes sentinels on, calls the operation with a value of its kind, and answers any other value
    with an exception. -/
def typed {α : Type} (name : String) (accept : Value → Option α) (call : α → Activity)
    (v : Value) : Activity :=
  if v.isSentinel then .done v
  else match accept v with
    | some a => call a
    | none => .done (Value.unexpected name v)

/-- The activity of a script whose outcome is that of the named operation. -/
def outcomeActivity {α : Type} (name : String) (wrap : α → Value) (script : Script (Outcome α)) :
    Activity :=
  Script.activity (script.bind fun o => .done (o.value name wrap))

namespace Leaf

def name : Leaf → String
  | domainName _ => "domain_name"
  | makeEndpoints _ => "make_endpoints_for_port"
  | lookupSystem => "dns_lookup_getaddrinfo"
  | lookupUdp _ => "dns_lookup_udp"
  | lookupStatic _ => "dns_lookup_static"
  | tcpConnect => "tcp_connect"
  | tlsHandshake _ => "tls_handshake"
  | quicHandshake _ => "quic_handshake"
  | httpTransaction _ => "http_transaction"

/-- A leaf with a way to take its input out of a value, a script, and a way to put its output into
    a value. -/
def measure {α β : Type} (l : Leaf) (accept : Value → Option α) (wrap : β → Value)
    (script : α → Script (Outcome β)) : Value → Activity :=
  typed l.name accept fun a => outcomeActivity l.name wrap (script a)

def apply (s : Scope) (l : Leaf) : Value → Activity :=
  match l with
  | domainName d => typed l.name Value.void? fun _ => .done (.lookup d)
  | makeEndpoints port =>
    typed l.name Value.resolved? fun r => .done (.endpoints (endpointsOf port r))
  | lookupSystem => l.measure Value.lookup? .resolved (SystemLookup.call s)
  | lookupUdp resolver => l.measure Value.lookup? .resolved (UdpLookup.call s resolver)
  | lookupStatic ips => l.measure Value.lookup? .resolved (StaticLookup.call ips)
  | tcpConnect => l.measure Value.endpoint? .connection (TcpConnect.call s)
  | tlsHandshake o =>
    l.measure (Value.connectionOver? .tcp) .connection (TlsHandshake.call s o)
  | quicHandshake o => l.measure Value.endpoint? .connection (QuicHandshake.call s o)
  | httpTransaction a => l.measure Value.connection? .response (HttpTransaction.call s a)

end Leaf

/-! ## Reducing the values of branches -/

/-- The first exception among values. -/
def firstException? (vs : List Value) : Option Exception :=
  vs.findSome? Value.exception?

/-- Nothing, unless one of the values is an exception. Failures of branches do not count: each
    branch has recorded its own. -/
def exceptionOrVoid (vs : List Value) : Value :=
  match firstException? vs with
  | some e => .exception e
  | none => .void

/-- The addresses in all lookups among values. -/
def resolvedAddresses (vs : List Value) : List Ip :=
  (vs.filterMap Value.resolved?).flatMap Resolved.addresses

/-- All addresses that were found for a domain in ascending order, unless one of the values is an
    exception. -/
def mergeLookups (domain : String) (vs : List Value) : Value :=
  match firstException? vs with
  | some e => .exception e
  | none => .resolved { domain, addresses := Ip.ascending (resolvedAddresses vs) }

/-! ## Operations -/

inductive Operation where
  | identity
  /-- Drops a value. -/
  | discard
  | leaf (l : Leaf)
  /-- One operation after the other, each with the value of the one before. -/
  | compose (ops : List Operation)
  /-- Several lookups of one domain. -/
  | lookupParallel (ops : List Operation)
  /-- Several measurements that need nothing. -/
  | measureDomains (ops : List Operation)
  /-- Several measurements of what a lookup gave. -/
  | measureEndpoints (ops : List Operation)
  /-- The operations in sequence for each of some endpoints. -/
  | endpointPipeline (ops : List Operation)
  /-- An operation that is not built in. -/
  | custom (apply : Scope → Value → Activity)

namespace Operation

/-- How many lookups of one domain run at a time. -/
def lookupWidth : Nat := 5

/-- How many branches of a measurement run at a time. -/
def measureWidth : Nat := 2

mutual

/-- The activity of an operation on a value. -/
def apply (s : Scope) : Operation → Value → Activity
  | identity, v => .done v
  | discard, v => .done (if v.isSentinel then v else .void)
  | leaf l, v => l.apply s v
  | compose ops, v => applyAll s ops v
  | lookupParallel ops, v =>
    typed "dns_lookup_parallel" Value.lookup? (fun d =>
      Activity.all lookupWidth (branches s ops (.lookup d)) fun vs => .done (mergeLookups d vs)) v
  | measureDomains ops, v =>
    typed "measure_multiple_domains" Value.void? (fun _ =>
      Activity.all measureWidth (branches s ops .void) fun vs => .done (exceptionOrVoid vs)) v
  | measureEndpoints ops, v =>
    typed "measure_multiple_endpoints" Value.resolved? (fun r =>
      Activity.all measureWidth (branches s ops (.resolved r)) fun vs =>
        .done (exceptionOrVoid vs)) v
  | endpointPipeline ops, v =>
    typed "new_endpoint_pipeline" Value.endpoints? (fun es =>
      Activity.all measureWidth (es.map fun e => applyAll s ops (.endpoint e)) fun vs =>
        .done (exceptionOrVoid vs)) v
  | custom f, v => f s v

/-- One operation after the other. -/
def applyAll (s : Scope) : List Operation → Value → Activity
  | [], v => .done v
  | op :: ops, v => (apply s op v).bind (applyAll s ops)

/-- Each of the operations on a copy of the value. -/
def branches (s : Scope) : List Operation → Value → List Activity
  | [], _ => []
  | op :: ops, v => apply s op v :: branches s ops v

end

end Operation

end NetProbe
