import NetProbe.Measurement.Basic
set_option autoImplicit false

/-! # Handshakes

A handshake of TLS goes on with the transaction of a TCP connection: it takes the stream out of the
slot and, once it is through, puts it into a slot of its own. A handshake of QUIC needs no
connection below it and is a transaction of its own. Options that cannot be used refuse the
handshake before anything is sent or recorded. -/

namespace NetProbe

/-- What a handshake says about itself. -/
def handshakeMessage (sort : String) (address : SocketAddress) (offer : Tls.Offer) : String :=
  sort ++ " " ++ address.text ++ " SNI=" ++ offer.serverName ++ " ALPN=" ++
    Text.quoteList offer.protocols

/-- The record of a handshake. -/
def handshakeRecord (network : String) (trace : TraceId) (address : SocketAddress)
    (options : HandshakeOptions) (offer : Tls.Offer) (result : Except String Tls.Peer) :
    HandshakeRecord :=
  let peer : Tls.Peer := match result with
    | .ok p => p
    | .error _ => {}
  { network, address := address.text, cipherSuite := peer.cipherSuite,
    failure := failureOf result, protocol := peer.protocolText, skipVerify := options.skipVerify,
    certificates := peer.certificateTexts, serverName := offer.serverName,
    tlsVersion := peer.version, trace }

/-! ## Over TCP -/

namespace TlsHandshake

/-- The protocols that are offered unless the program chooses others. -/
def protocols : List String := ["http/1.1"]

/-- Shakes hands over a stream that was taken out of its slot. -/
def run (s : Scope) (options : HandshakeOptions) (offer : Tls.Offer) (c : Connection)
    (stream : Stream) : Script (Outcome Connection) := do
  let message := handshakeMessage "TLSHandshake" c.address offer
  Script.log (.started c.trace message)
  let child ← Script.limit s.context s.config.timeouts.tlsHandshake
  let result := unlessInterrupted unlessBroken (← Script.attempt child (.secure stream offer))
  Script.save {
    tlsHandshakes := [handshakeRecord "tcp" c.trace c.address options offer result] }
  Script.log (.stopped c.trace message (failureOf result))
  match result with
  | .error failure => return .failed failure
  | .ok peer =>
    let slot ← Script.hold { stream with transport := .tls }
    return .output { c with transport := .tls, protocol := peer.protocolText, slot }

/-- Shakes hands over a TCP connection. -/
def call (s : Scope) (options : HandshakeOptions) (c : Connection) :
    Script (Outcome Connection) := do
  match Tls.offerOf options protocols c.domain with
  | .error fault => return .refused fault.message
  | .ok offer =>
    if !ServerName.isValid offer.serverName then
      return .refused
        ("invalid server name " ++ Text.quote offer.serverName ++ ": invalid dns name")
    else match ← Script.take c.slot with
      | none => return .refused "TCP connection is no longer available"
      | some stream => run s options offer c stream

end TlsHandshake

/-! ## Over datagrams -/

namespace QuicHandshake

/-- The protocols that are offered unless the program chooses others. -/
def protocols : List String := ["h3"]

/-- Whether an address says that there is none. -/
def isUnspecified : Ip → Bool
  | .v4 a => a.value = 0
  | .v6 a => a.value = 0

/-- Why a handshake is not even started, if it is not. -/
def startFault (address : SocketAddress) (offer : Tls.Offer) : Option String :=
  if address.port = 0 || isUnspecified address.ip then
    some ("invalid remote address: " ++ address.text)
  else if !ServerName.isValid offer.serverName then
    some ("invalid server name: " ++ offer.serverName)
  else none

/-- What the answer comes to; the version of TLS below QUIC is always the same. -/
def result (answer : Except Interruption (Except QuicFault Tls.Peer)) : Except String Tls.Peer :=
  unlessInterrupted (fun
    | .ok peer => .ok { peer with cipherSuite := "", version := "TLSv1.3" }
    | .error fault => .error fault.failure) answer

/-- Shakes hands, or finds at once that this is not possible. -/
def shake (c : Context) (address : SocketAddress) (offer : Tls.Offer) :
    Script (Except String Tls.Peer) := do
  match startFault address offer with
  | some fault =>
    let refused := unlessInterrupted fun () => .error (FailureName.unknown fault)
    return refused (← Script.attempt c (.pause 0))
  | none => return result (← Script.attempt c (.quic address offer))

/-- Shakes hands with an endpoint. -/
def call (s : Scope) (options : HandshakeOptions) (e : Endpoint) :
    Script (Outcome Connection) := do
  match Tls.offerOf options protocols e.domain with
  | .error fault => return .refused fault.message
  | .ok offer =>
    let trace ← Script.newTrace
    let message := handshakeMessage "QUICHandshake" e.address offer
    Script.log (.started trace message)
    let child ← Script.limit s.context s.config.timeouts.quicHandshake
    let result ← shake child e.address offer
    Script.save {
      quicHandshakes := [handshakeRecord "udp" trace e.address options offer result] }
    Script.log (.stopped trace message (failureOf result))
    match result with
    | .error failure => return .failed failure
    | .ok peer =>
      let slot ← Script.hold (← Script.establish .quic)
      return .output {
        transport := .quic, address := e.address, domain := e.domain,
        protocol := peer.protocolText, trace, slot }

end QuicHandshake

end NetProbe
