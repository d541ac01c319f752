import NetProbe.Dns.Message
import NetProbe.Net.Fault
set_option autoImplicit false

/-! # Asking a resolver

A query is answered by the first datagram that carries its identifier; datagrams that are too short
to have one or carry another are passed over. All of them are received into the same buffer, one
over the other. If no answer comes, what ended the receiving is the failure. -/

namespace NetProbe.Dns

/-- The most bytes of a datagram that are looked at. -/
def maxDatagram : Nat := 4096

/-- What arrives on a socket: datagrams in order, then a fault. -/
structure Inbox where
  datagrams : List Bytes
  fault : IoError
deriving Repr

/-! ## Receiving -/

/-- The memory into which datagrams are received. -/
structure Buffer where
  bytes : Bytes
  length_bytes : bytes.length = maxDatagram

namespace Buffer

/-- A buffer before anything is received. -/
def blank : Buffer where
  bytes := List.replicate maxDatagram 0
  length_bytes := List.length_replicate

/-- The buffer with a datagram over its front, and how many bytes were received. Of a longer
    datagram the end is lost; behind a shorter one the bytes stay as they were. -/
def receive (b : Buffer) (datagram : Bytes) : Buffer × Nat :=
  let received := datagram.take maxDatagram
  let after : Buffer := {
    bytes := received ++ b.bytes.drop received.length
    length_bytes := by
      have hshort : received.length ≤ maxDatagram := List.length_take_le _ _
      rw [List.length_append, List.length_drop, b.length_bytes]
      omega }
  (after, received.length)

/-- So many bytes from the front of a buffer. -/
def front (b : Buffer) (n : Nat) : Bytes := b.bytes.take n

end Buffer

/-- What is in front of the buffer when the first datagram with that identifier is received. -/
def firstReply (id : Option UInt16) (b : Buffer) : List Bytes → Option Bytes
  | [] => none
  | datagram :: rest =>
    let (b, n) := b.receive datagram
    let reply := b.front n
    if messageId reply = id then some reply else firstReply id b rest

/-- What a query gives: the addresses in the reply to it, or the name of a failure. -/
def readReply (query : Bytes) (type : RecordType) (inbox : Inbox) :
    Except String (List AddressRecord) :=
  match firstReply (messageId query) .blank inbox.datagrams with
  | none => .error inbox.fault.failure
  | some reply =>
    match decodeResponse reply type with
    | .ok records => .ok records
    | .error e => .error e.message

end NetProbe.Dns
