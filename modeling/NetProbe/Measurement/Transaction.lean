import NetProbe.Measurement.Basic
set_option autoImplicit false

/-! # Transactions of HTTP

One request over a connection and the response to it, as part of the transaction of the connection.
Over TCP and TLS the stream is taken out of its slot for the exchange and put back afterwards; over
QUIC it stays there. A request that cannot be planned refuses the transaction before anything is
sent or recorded. -/

namespace NetProbe

namespace HttpTransaction

open Http (Request ResponseParts)

/-- The failure over a TLS connection whose peers agreed on another protocol. No protocol means
    that the server did not speak about it. -/
def protocolFault (protocol : String) : Option String :=
  if protocol = "" ∨ protocol = "http/1.1" then none
  else some (FailureName.unknown ("unsupported negotiated protocol " ++ Text.quote protocol))

/-- What arrives over a stream. -/
def received (r : Request) (limit : UInt64) :
    Except Interruption (Except IoError Http.Incoming) → Except String ResponseParts :=
  unlessInterrupted fun
    | .error e => .error e.failure
    | .ok incoming =>
      match Http.readResponse r.method limit incoming with
      | .ok parts => .ok parts
      | .error fault => .error fault.failure

/-- What arrives in frames. -/
def receivedFrames (limit : UInt64) :
    Except Interruption (Except String Http.Reply) → Except String ResponseParts :=
  unlessInterrupted fun
    | .error message => .error (FailureName.unknown message)
    | .ok reply =>
      match reply.response limit with
      | .ok parts => .ok parts
      | .error message => .error (FailureName.unknown message)

/-- Sends the head of the request over the stream in the slot and reads the response. Nothing says
    that the slot is empty. -/
def exchange (c : Context) (slot : SlotId) (r : Request) (limit : UInt64) :
    Script (Option (Except String ResponseParts)) := do
  match ← Script.take slot with
  | none => return none
  | some stream =>
    let answer ← Script.attempt c (.fetch stream (Text.toBytes r.head))
    let _ ← Script.restore slot stream
    return some (received r limit answer)

/-- Sends the fields of the request and reads the response in frames. Nothing says that the slot is
    empty. -/
def exchangeFrames (c : Context) (slot : SlotId) (r : Request) (limit : UInt64) :
    Script (Option (Except String ResponseParts)) := do
  match ← Script.take slot with
  | none => return none
  | some stream =>
    let _ ← Script.restore slot stream
    match r.fields with
    | .error fault =>
      let refused := unlessInterrupted fun () => .error (FailureName.unknown fault.message)
      return some (refused (← Script.attempt c (.pause 0)))
    | .ok fields =>
      return some (receivedFrames limit (← Script.attempt c (.fetchFrames stream fields)))

/-- The exchange that the transport of the connection asks for. -/
def run (child : Context) (c : Connection) (r : Request) (limit : UInt64) :
    Script (Option (Except String ResponseParts)) :=
  match c.transport with
  | .tcp => exchange child c.slot r limit
  | .tls =>
    match protocolFault c.protocol with
    | some failure => pure (some (.error failure))
    | none => exchange child c.slot r limit
  | .quic => exchangeFrames child c.slot r limit

def record (c : Connection) (r : Request) (result : Except String ResponseParts) :
    ExchangeRecord where
  network := c.network
  address := c.address.text
  protocol := c.protocol
  failure := failureOf result
  request := { headers := r.headers, method := r.method, url := r.url.text }
  response := match result with
    | .error _ => none
    | .ok parts => some {
        body := Text.ofBytesLossy parts.snapshot.body
        truncated := parts.snapshot.truncated
        status := parts.status
        headers := parts.headers }
  trace := c.trace

/-- The observations of a transaction: that it started and that it is done, and its record. -/
def observations (c : Connection) (r : Request) (result : Except String ResponseParts) :
    Observations where
  events := [{ operation := "http_transaction_start", trace := c.trace },
    { operation := "http_transaction_done", trace := c.trace }]
  requests := [record c r result]

/-- What a transaction says about itself. -/
def message (c : Connection) (r : Request) : String :=
  "HTTPTransaction " ++ r.method ++ " " ++ r.url.text ++ " with " ++ c.address.text ++ "/" ++
    c.network ++ " host=" ++ (Http.header? r.headers "host").getD ""

def response (c : Connection) (r : Request) (parts : ResponseParts) : Response where
  address := c.address
  domain := c.domain
  network := c.network
  protocol := c.protocol
  url := r.url.text
  status := parts.status
  headers := parts.headers
  body := parts.snapshot.body
  truncated := parts.snapshot.truncated

/-- Sends a request over a connection and reads the response. -/
def call (s : Scope) (a : HttpArguments) (c : Connection) : Script (Outcome Response) := do
  match Request.plan a s.config.http c with
  | .error fault => return .refused fault.message
  | .ok request =>
    let limit := a.snapshotSize.getD s.config.http.snapshotSize
    Script.log (.started c.trace (message c request))
    let child ← Script.limit s.context s.config.timeouts.httpTransaction
    match ← run child c request limit with
    | none => return .refused "connection is no longer available"
    | some result =>
      Script.save (observations c request result)
      Script.log (.stopped c.trace (message c request) (failureOf result))
      match result with
      | .ok parts => return .output (response c request parts)
      | .error failure => return .failed failure

end HttpTransaction

end NetProbe
