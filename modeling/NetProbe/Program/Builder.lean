import NetProbe.Kinds
import NetProbe.Program.Arguments
import NetProbe.Program.Node
set_option autoImplicit false

/-! # Building programs

A program is put together from pieces that know which kinds of values they take and give. Each
constructor checks that the kinds of its pieces fit, sentinels aside, and that its arguments are
ones that a probe accepts; `Piece.node` is the finished program. -/

namespace NetProbe

/-- A piece of a program. -/
structure Piece where
  name : String
  /-- The kinds of values that the piece takes. -/
  input : Kinds
  /-- The kinds of values that the piece gives. -/
  output : Kinds
  arguments : Json := .null
  children : List Piece := []
deriving Inhabited

namespace Piece

mutual

/-- The program of a piece; a piece without arguments gets an empty object. -/
def node : Piece → Node
  | ⟨name, _, _, arguments, children⟩ =>
    { func := name, arguments := if arguments.isNull then .object [] else arguments,
      children := nodes children }

/-- The programs of pieces. -/
def nodes : List Piece → List Node
  | [] => []
  | p :: rest => node p :: nodes rest

end

/-! ## Sequences -/

/-- Fails unless each piece takes what the one before it gives. -/
def checkSequence : List Piece → Except BuildError Unit
  | prev :: next :: rest =>
    if prev.output.main = next.input.main then checkSequence (next :: rest)
    else .error (.typeMismatch ("compose: " ++ next.name ++ " after " ++ prev.name)
      prev.output.main.text next.input.main.text)
  | _ => .ok ()

/-- One piece after the other. -/
def compose (ps : List Piece) : Except BuildError Piece :=
  match ps with
  | [] => .error (.emptyComposition "compose")
  | p :: rest =>
    (checkSequence ps).map fun () =>
      { name := "compose", input := p.input, output := (rest.getLast?.getD p).output,
        children := ps }

/-- Drops values of some kinds. -/
def discard (kinds : Kinds) : Piece where
  name := "discard"
  input := kinds
  output := Kind.void
  arguments := .object []

/-- A piece that a probe may not know, and passes values on then: it has to give what it takes. -/
def ifExists (p : Piece) : Except BuildError Piece :=
  if p.input.main = p.output.main then
    .ok { name := "if_func_exists", input := p.input, output := p.output, children := [p] }
  else .error (.notAFilter p.name p.input.main.text p.output.main.text)

/-! ## Lookups -/

def orInvalid {α : Type} : Except PlaceError α → Except BuildError α
  | .ok a => .ok a
  | .error e => .error (.invalidArgument e.message)

/-- The domain to measure. -/
def domainName (domain : String) : Except BuildError Piece := do
  let domain ← orInvalid (parseDomain domain)
  return {
    name := "domain_name", input := Kind.void, output := Kind.lookupInput,
    arguments := DomainArguments.schema.encode { domain } }

/-- A lookup that asks the system. -/
def lookupSystem : Piece where
  name := "dns_lookup_getaddrinfo"
  input := Kind.lookupInput
  output := Kind.lookupOutput

/-- A lookup that gives the same addresses for every domain. -/
def lookupStatic (addresses : List String) : Except BuildError Piece := do
  let _ ← orInvalid (parseAddresses addresses)
  return {
    name := "dns_lookup_static", input := Kind.lookupInput, output := Kind.lookupOutput,
    arguments := StaticLookupArguments.schema.encode { addresses } }

/-- A lookup that asks a resolver. -/
def lookupUdp (endpoint : String) : Except BuildError Piece := do
  let _ ← orInvalid (parseEndpoint endpoint)
  return {
    name := "dns_lookup_udp", input := Kind.lookupInput, output := Kind.lookupOutput,
    arguments := UdpLookupArguments.schema.encode { endpoint } }

/-! ## Groups -/

/-- Fails unless each piece takes and gives values of these kinds. -/
def checkGroup (context : String) (input output : Kinds) : List Piece → Except BuildError Unit
  | [] => .ok ()
  | p :: rest =>
    if p.input.main ≠ input.main then
      .error (.typeMismatch (context ++ ": " ++ p.name ++ " input") input.main.text
        p.input.main.text)
    else if p.output.main ≠ output.main then
      .error (.typeMismatch (context ++ ": " ++ p.name ++ " output") output.main.text
        p.output.main.text)
    else checkGroup context input output rest

/-- A group of pieces that take and give values of the same kinds. -/
def group (name : String) (input output : Kind) (ps : List Piece) : Except BuildError Piece :=
  (checkGroup name input output ps).map fun () => { name, input, output, children := ps }

/-- Several lookups of one domain. -/
def lookupParallel : List Piece → Except BuildError Piece :=
  group "dns_lookup_parallel" .lookupInput .lookupOutput

/-- Several measurements that need nothing. -/
def measureDomains : List Piece → Except BuildError Piece :=
  group "measure_multiple_domains" .void .void

/-- Several measurements of what a lookup gave. -/
def measureEndpoints : List Piece → Except BuildError Piece :=
  group "measure_multiple_endpoints" .lookupOutput .void

/-! ## Endpoints and connections -/

/-- Endpoints on a port. -/
def makeEndpoints (port : UInt16) : Piece where
  name := "make_endpoints_for_port"
  input := Kind.lookupOutput
  output := Kind.endpoints
  arguments := EndpointsArguments.schema.encode { port }

/-- A sequence of pieces for each endpoint. -/
def endpointPipeline (ps : List Piece) : Except BuildError Piece := do
  let composed ← compose ps
  checkGroup "new_endpoint_pipeline" Kind.endpoint Kind.void [composed]
  return {
    name := "new_endpoint_pipeline", input := Kind.endpoints, output := Kind.void,
    arguments := .object [], children := composed.children }

/-- Connects over TCP. -/
def tcpConnect : Piece where
  name := "tcp_connect"
  input := Kind.endpoint
  output := Kind.tcpConnection

/-- Shakes hands over a TCP connection. -/
def tlsHandshake (a : HandshakeArguments) : Piece where
  name := "tls_handshake"
  input := Kind.tcpConnection
  output := Kind.tlsConnection
  arguments := HandshakeArguments.schema.encode a

/-- Shakes hands over datagrams. -/
def quicHandshake (a : HandshakeArguments) : Piece where
  name := "quic_handshake"
  input := Kind.endpoint
  output := Kind.quicConnection
  arguments := HandshakeArguments.schema.encode a

/-- The kinds of connections that requests go over. -/
def connectionKinds : List Kind := [.tcpConnection, .tlsConnection, .quicConnection]

/-- Sends a request over a connection of some kind. -/
def httpTransaction (connection : Kind) (a : HttpArguments) : Except BuildError Piece :=
  if connectionKinds.contains connection then
    match a.validate "http_transaction" with
    | .error e => .error (.invalidArgument e.message)
    | .ok _ => .ok {
        name := "http_transaction", input := connection, output := Kind.httpResponse,
        arguments := HttpArguments.schema.encode a }
  else
    .error (.invalidArgument ("http_transaction: cannot run over " ++ connection.name))

/-! ## An example -/

/-- Looks a domain up with the system and with a public resolver, and fetches its first page from
    every address over TCP, TLS and QUIC. -/
def sample (domain : String) : Except BuildError Piece := do
  let get (kind : Kind) := httpTransaction kind {}
  let name ← domainName domain
  let resolver ← lookupUdp "8.8.8.8:53"
  let lookup ← lookupParallel [lookupSystem, resolver]
  let plain ← endpointPipeline
    [tcpConnect, ← get .tcpConnection, discard Kind.httpResponse]
  let plain ← compose [makeEndpoints 80, plain]
  let secure ← endpointPipeline
    [tcpConnect, tlsHandshake {}, ← get .tlsConnection, discard Kind.httpResponse]
  let secure ← compose [makeEndpoints 443, secure]
  let quic ← endpointPipeline
    [quicHandshake {}, ← get .quicConnection, discard Kind.httpResponse]
  let quic ← compose [makeEndpoints 443, quic]
  compose [name, lookup, ← measureEndpoints [plain, secure, quic]]

end Piece

end NetProbe
