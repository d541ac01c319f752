import NetProbe.Measurement.Basic
set_option autoImplicit false

/-! # Looking up names

Three ways to the addresses of a domain: asking the system, asking a resolver, and a list that the
program brings along. Each lookup is a transaction of its own and leaves a record for each type of
records that it asked for. -/

namespace NetProbe

/-- Addresses without repetition, each at the place where it first occurs. -/
def distinct : List Ip → List Ip
  | [] => []
  | a :: rest => a :: (distinct rest).filter (· ≠ a)

/-- The addresses in answers. -/
def addressesOf (answers : List LookupAnswer) : List Ip :=
  answers.map LookupAnswer.address

/-! ## Asking the system -/

namespace SystemLookup

/-- What the answer of the system comes to: no address at all is a failure. -/
def result (answer : Except Interruption (Except IoError (List Ip))) : Except String (List Ip) :=
  unlessInterrupted (fun
    | .error e => .error e.lookupFailure
    | .ok ips => if ips.isEmpty then .error FailureName.dnsNoAnswer else .ok (distinct ips))
    answer

def record (trace : TraceId) (domain : String) (result : Except String (List Ip)) :
    LookupRecord where
  answers := match result with
    | .ok ips => ips.map fun address => { address }
    | .error _ => []
  engine := "getaddrinfo"
  failure := failureOf result
  hostname := domain
  queryType := "ANY"
  resolver := ""
  trace := trace

/-- Asks the system; an empty domain fails without asking. -/
def call (s : Scope) (domain : String) : Script (Outcome Resolved) := do
  let trace ← Script.newTrace
  let message := "DNSLookup[getaddrinfo] " ++ domain
  Script.log (.started trace message)
  let child ← Script.limit s.context s.config.timeouts.dnsLookup
  let found ←
    if domain.isEmpty then pure (.error (FailureName.unknown "empty domain"))
    else result <$> Script.attempt child (.lookup domain)
  Script.save { lookups := [record trace domain found] }
  Script.log (.stopped trace message (failureOf found))
  match found with
  | .ok addresses => return .output { domain, addresses }
  | .error failure => return .failed failure

end SystemLookup

/-! ## Asking a resolver -/

namespace UdpLookup

/-- What a query for a type of records comes to. -/
abbrev Found := Except String (List Dns.AddressRecord)

/-- The addresses that a query gives. -/
def addresses : Found → List Ip
  | .ok records => records.map Dns.AddressRecord.address
  | .error _ => []

def record (trace : TraceId) (resolver : Resolver) (domain : String) (type : Dns.RecordType)
    (found : Found) : LookupRecord where
  answers := match found with
    | .ok records => records.map fun r => { address := r.address, ttl := some r.ttl }
    | .error _ => []
  engine := "udp"
  failure := failureOf found
  hostname := domain
  queryType := Dns.typeName type
  resolver := resolver.text
  trace := trace

/-- The failure of two queries that gave no address: the first one that says more than that there
    is no answer. -/
def failure (a b : Found) : String :=
  (([failureOf a, failureOf b].filterMap id).find? (· ≠ FailureName.dnsNoAnswer)).getD
    FailureName.dnsNoAnswer

/-- What two queries come to: the addresses of both, if there are any. -/
def merge (a b : Found) : Except String (List Ip) :=
  let ips := distinct (addresses a ++ addresses b)
  if ips.isEmpty then .error (failure a b) else .ok ips

/-- What arrives in answer to a query. -/
def received (query : List UInt8) (type : Dns.RecordType)
    (answer : Except Interruption Dns.Inbox) : Found :=
  unlessInterrupted (Dns.readReply query type) answer

/-- Sends the queries for both types of addresses at the same time. -/
def query (c : Context) (resolver : Resolver) (domain : String) : Script (Found × Found) := do
  let a := Dns.encodeQuery (← Script.randomWord) domain Dns.typeA
  let b := Dns.encodeQuery (← Script.randomWord) domain Dns.typeAAAA
  match resolver, a, b with
  | .unusable text, _, _ =>
    let failure := FailureName.unknown ("invalid endpoint " ++ Text.quote text)
    return (.error failure, .error failure)
  | .at _, .error e, _ => return (.error e.message, .error e.message)
  | .at _, _, .error e => return (.error e.message, .error e.message)
  | .at address, .ok a, .ok b =>
    let (forA, forB) ← Script.attemptBoth c (.ask address a) (.ask address b)
    return (received a Dns.typeA forA, received b Dns.typeAAAA forB)

/-- Asks a resolver for both types of addresses. -/
def call (s : Scope) (resolver : Resolver) (domain : String) : Script (Outcome Resolved) := do
  let trace ← Script.newTrace
  let message := "DNSLookup[" ++ resolver.text ++ "/udp] " ++ domain
  Script.log (.started trace message)
  let child ← Script.limit s.context s.config.timeouts.dnsLookup
  let (a, b) ← query child resolver domain
  Script.save { lookups :=
    [record trace resolver domain Dns.typeA a, record trace resolver domain Dns.typeAAAA b] }
  let found := merge a b
  Script.log (.stopped trace message (failureOf found))
  match found with
  | .ok addresses => return .output { domain, addresses }
  | .error failure => return .failed failure

end UdpLookup

/-! ## Addresses of the program -/

namespace StaticLookup

def record (trace : TraceId) (domain : String) (ips : List Ip) : LookupRecord where
  answers := ips.map fun address => { address }
  engine := "static"
  failure := none
  hostname := domain
  queryType := "ANY"
  resolver := ""
  trace := trace

/-- Gives the addresses of the program, as if they had been looked up. -/
def call (ips : List Ip) (domain : String) : Script (Outcome Resolved) := do
  let trace ← Script.newTrace
  let message := "DNSLookup[static] " ++ domain
  Script.log (.started trace message)
  let addresses := distinct ips
  Script.save { lookups := [record trace domain addresses] }
  Script.log (.stopped trace message none)
  return .output { domain, addresses }

end StaticLookup

end NetProbe
