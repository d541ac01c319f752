import NetProbe.Dns.Exchange
import NetProbe.Http.Request
import NetProbe.Http.Response
import NetProbe.Run.Context
import NetProbe.Run.Session
import NetProbe.Tls.Offer
set_option autoImplicit false

/-! # Attempts

What operations do that takes time: they connect, ask, shake hands, send requests, or just wait.
Each attempt has a type of answers; which answer comes, and when, is up to the network. -/

namespace NetProbe

/-- What a peer shows in a handshake. -/
structure Tls.Peer where
  /-- The protocol of the application that the peers agreed on. -/
  protocol : Option (List UInt8) := none
  certificates : List (List UInt8) := []
  cipherSuite : String := ""
  version : String := ""
deriving DecidableEq, Repr

namespace Tls.Peer

/-- The protocol as a text; empty if the peers did not speak about it. -/
def protocolText (p : Tls.Peer) : String :=
  Text.ofBytesLossy (p.protocol.getD [])

/-- The certificates in Base64. -/
def certificateTexts (p : Tls.Peer) : List String :=
  p.certificates.map Text.Base64.encodeText

end Tls.Peer

/-- Something that takes time. -/
inductive Attempt where
  | connect (address : SocketAddress)
  /-- Ask the system for the addresses of a name. -/
  | lookup (domain : String)
  /-- Send a query to a resolver. -/
  | ask (resolver : SocketAddress) (query : List UInt8)
  /-- Shake hands over a stream, which is used up. -/
  | secure (stream : Stream) (offer : Tls.Offer)
  /-- Shake hands over datagrams. -/
  | quic (address : SocketAddress) (offer : Tls.Offer)
  /-- Send the head of a request over a stream. -/
  | fetch (stream : Stream) (head : List UInt8)
  /-- Send the fields of a request over a stream. -/
  | fetchFrames (stream : Stream) (fields : Http.Fields)
  /-- Wait for some milliseconds. -/
  | pause (duration : Nat)
deriving DecidableEq, Repr

/-- The answers to an attempt. Where there is no answer in time, the context ends the attempt. -/
def Attempt.Answer : Attempt → Type
  | connect _ => Except IoError Unit
  | lookup _ => Except IoError (List Ip)
  | ask _ _ => Dns.Inbox
  | secure _ _ => Except IoError Tls.Peer
  | quic _ _ => Except QuicFault Tls.Peer
  | fetch _ _ => Except IoError Http.Incoming
  | fetchFrames _ _ => Except String Http.Reply
  | pause _ => Unit

end NetProbe
