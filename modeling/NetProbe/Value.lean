import NetProbe.Json.Basic
import NetProbe.Kinds
import NetProbe.Net.Text
set_option autoImplicit false

/-! # Values of a measurement

What flows from one operation to the next: nothing, a name to look up, addresses, endpoints,
connections and responses; and three sentinels, which every operation passes on as they are: a
failure of the measurement, an exception of the program, and the mark of a branch that is done. -/

namespace NetProbe

/-- A failure of a measurement: the operation that failed and the name of its failure. -/
structure Failure where
  operation : String
  failure : String
deriving DecidableEq, Repr

namespace Failure

def message (f : Failure) : String := f.operation ++ ": " ++ f.failure

def toJson (f : Failure) : Json :=
  Json.ofMembers [("operation", .string f.operation), ("failure", .string f.failure)]

end Failure

/-- A fault of the program, which ends the branch that ran into it. -/
structure Exception where
  reason : String
deriving DecidableEq, Repr

namespace Exception

def message (e : Exception) : String := "exception: " ++ e.reason

def toJson (e : Exception) : Json := Json.ofMembers [("reason", .string e.reason)]

end Exception

/-- The addresses of a domain. -/
structure Resolved where
  domain : String
  addresses : List Ip
deriving DecidableEq, Repr

/-- Where to connect to, and the domain that this is about. -/
structure Endpoint where
  address : SocketAddress
  domain : String
deriving DecidableEq, Repr

/-- The number of a measurement transaction. -/
abbrev TraceId := Int

/-- The number of the slot that owns a connection. -/
abbrev SlotId := Nat

/-- How a connection came about. -/
inductive Transport where
  | tcp
  | tls
  | quic
deriving DecidableEq, Repr

/-- An established connection. -/
structure Connection where
  transport : Transport
  address : SocketAddress
  domain : String
  /-- The protocol that the peers agreed on; empty if they did not speak about it. -/
  protocol : String
  trace : TraceId
  slot : SlotId
deriving DecidableEq, Repr

namespace Connection

/-- The network below the connection. -/
def network (c : Connection) : String :=
  match c.transport with
  | .tcp | .tls => "tcp"
  | .quic => "udp"

/-- The scheme of URLs over the connection. -/
def scheme (c : Connection) : String :=
  match c.transport with
  | .tcp => "http"
  | .tls | .quic => "https"

end Connection

/-- The response to a request. -/
structure Response where
  address : SocketAddress
  domain : String
  network : String
  protocol : String
  url : String
  status : Nat
  headers : List (String × String)
  body : List UInt8
  truncated : Bool
deriving DecidableEq, Repr

inductive Value where
  | void
  | lookup (domain : String)
  | resolved (r : Resolved)
  | endpoint (e : Endpoint)
  | endpoints (es : List Endpoint)
  | connection (c : Connection)
  | response (r : Response)
  | error (f : Failure)
  | exception (e : Exception)
  | skip
deriving DecidableEq, Repr

instance : Inhabited Value := ⟨.void⟩

namespace Value

/-- The kind of a value. -/
def kind : Value → Kind
  | void => .void
  | lookup _ => .lookupInput
  | resolved _ => .lookupOutput
  | endpoint _ => .endpoint
  | endpoints _ => .endpoints
  | connection c =>
    match c.transport with
    | .tcp => .tcpConnection
    | .tls => .tlsConnection
    | .quic => .quicConnection
  | response _ => .httpResponse
  | error _ => .error
  | exception _ => .exception
  | skip => .skip

/-- Whether every operation passes the value on as it is. -/
def isSentinel : Value → Bool
  | error _ | exception _ | skip => true
  | _ => false

def error? : Value → Option Failure
  | error f => some f
  | _ => none

def exception? : Value → Option Exception
  | exception e => some e
  | _ => none

/-- What an operation makes of a value of a kind that it does not take. -/
def unexpected (operation : String) (v : Value) : Value :=
  .exception ⟨operation ++ ": unexpected " ++ v.kind.name ++ " type"⟩

/-! ## Values of one kind -/

def void? : Value → Option Unit
  | void => some ()
  | _ => none

def lookup? : Value → Option String
  | lookup d => some d
  | _ => none

def resolved? : Value → Option Resolved
  | resolved r => some r
  | _ => none

def endpoint? : Value → Option Endpoint
  | endpoint e => some e
  | _ => none

def endpoints? : Value → Option (List Endpoint)
  | endpoints es => some es
  | _ => none

/-- A connection of any transport. -/
def connection? : Value → Option Connection
  | connection c => some c
  | _ => none

/-- A connection of one transport. -/
def connectionOver? (t : Transport) : Value → Option Connection
  | connection c => if c.transport = t then some c else none
  | _ => none

def response? : Value → Option Response
  | response r => some r
  | _ => none

end Value

end NetProbe
