import NetProbe.Proofs.Results
import NetProbe.Proofs.Run.Scripts
set_option autoImplicit false

/-! # What leaves do

Everything that a call of a leaf can come to, with its deeds: `Leaf.Did`. A call is refused before
it does anything; or it saves one group of observations, with a record of the failure that it comes
to, or of its success, and puts a new stream into a slot if it succeeded in making one. The scripts
of the measurements are taken apart once, for `Leaf.did_of_traces`; all else that is said about
leaves is read off the cases of `Did`. -/

namespace NetProbe

open Activity (Traces)

/-! ## Values that leaves take -/

namespace Value

variable {v : Value}

theorem eq_of_void? {u : Unit} (h : v.void? = some u) : v = .void := by
  cases v <;> simp_all [void?]

theorem eq_of_lookup? {domain : String} (h : v.lookup? = some domain) : v = .lookup domain := by
  cases v <;> simp_all [lookup?]

theorem eq_of_resolved? {r : Resolved} (h : v.resolved? = some r) : v = .resolved r := by
  cases v <;> simp_all [resolved?]

theorem eq_of_endpoint? {e : Endpoint} (h : v.endpoint? = some e) : v = .endpoint e := by
  cases v <;> simp_all [endpoint?]

theorem eq_of_endpoints? {es : List Endpoint} (h : v.endpoints? = some es) : v = .endpoints es := by
  cases v <;> simp_all [endpoints?]

theorem eq_of_connection? {c : Connection} (h : v.connection? = some c) : v = .connection c := by
  cases v <;> simp_all [connection?]

theorem eq_of_connectionOver? {t : Transport} {c : Connection}
    (h : v.connectionOver? t = some c) : v = .connection c ∧ c.transport = t := by
  cases v with
  | connection d =>
    rw [connectionOver?] at h
    split at h
    · next ht =>
      obtain rfl := Option.some.inj h
      exact ⟨rfl, ht⟩
    · cases h
  | _ => cases h

end Value

/-! ## Records -/

/-- The failures in the records of the leaf's kind, and nothing for each success. -/
def Leaf.outcomes : Leaf → Observations → List (Option String)
  | lookupSystem, o => (o.lookups.filter (·.engine = "getaddrinfo")).map (·.failure)
  | lookupUdp _, o => (o.lookups.filter (·.engine = "udp")).map (·.failure)
  | lookupStatic _, o => (o.lookups.filter (·.engine = "static")).map (·.failure)
  | tcpConnect, o => o.connects.map (·.failure)
  | tlsHandshake _, o => o.tlsHandshakes.map (·.failure)
  | quicHandshake _, o => o.quicHandshakes.map (·.failure)
  | httpTransaction _, o => o.requests.map (·.failure)
  | domainName _, _ | makeEndpoints _, _ => []

@[simp] theorem failureOf_ok {α : Type} (a : α) : failureOf (.ok a : Except String α) = none := rfl

@[simp] theorem failureOf_error {α : Type} (failure : String) :
    failureOf (.error failure : Except String α) = some failure := rfl

namespace TcpConnect

variable (trace : TraceId) (address : SocketAddress) (result : Except String Unit)

@[simp] theorem trace_record : (record trace address result).trace = trace := rfl

@[simp] theorem failure_record : (record trace address result).failure = failureOf result := rfl

end TcpConnect

section Handshakes

variable (network : String) (trace : TraceId) (address : SocketAddress)
  (options : HandshakeOptions) (offer : Tls.Offer) (result : Except String Tls.Peer)

@[simp] theorem trace_handshakeRecord :
    (handshakeRecord network trace address options offer result).trace = trace := rfl

@[simp] theorem failure_handshakeRecord :
    (handshakeRecord network trace address options offer result).failure = failureOf result := rfl

end Handshakes

namespace HttpTransaction

variable (c : Connection) (r : Http.Request) (result : Except String Http.ResponseParts)

@[simp] theorem trace_record : (record c r result).trace = c.trace := rfl

@[simp] theorem failure_record : (record c r result).failure = failureOf result := rfl

end HttpTransaction

/-- The records of one lookup: one record, or one for each type of addresses. -/
inductive OneLookup (trace : TraceId) : List LookupRecord → Prop
  | one {r : LookupRecord} : r.trace = trace → r.engine ≠ "udp" → OneLookup trace [r]
  | two {a b : LookupRecord} : a.trace = trace → a.engine = "udp" → a.queryType = "A" →
      b.trace = trace → b.engine = "udp" → b.queryType = "AAAA" → OneLookup trace [a, b]

/-! ## Calls -/

/-- How a stream is used that stays in its slot: not at all, or it is taken and put back. -/
inductive Borrows (id : SlotId) : List Deed → Prop
  | nothing : Borrows id []
  | stream (stream : Stream) : Borrows id [.took id (some stream), .restored id stream]

/-- Why a call finds no stream. -/
def unavailableTexts : List String :=
  ["TCP connection is no longer available", "connection is no longer available"]

/-- The leaf, called with the first value, may come to the second one with these deeds. -/
inductive Leaf.Did : Leaf → Value → Value → List Deed → Prop
  /-- A sentinel is passed on. -/
  | passed {l : Leaf} {v : Value} : v.isSentinel = true → Did l v v []
  /-- The call is refused, for another reason than that a stream is gone. -/
  | refused {l : Leaf} {v : Value} {reason : String} :
      v.isSentinel = false → reason ∉ unavailableTexts →
      Did l v (.exception ⟨l.name ++ ": " ++ reason⟩) []
  /-- The stream is gone. -/
  | unavailable {l : Leaf} {c : Connection} {e : Exception} :
      Did l (.connection c) (.exception e) [.took c.slot none]
  | domainName {domain : String} : Did (.domainName domain) .void (.lookup domain) []
  | makeEndpoints {port : UInt16} {r : Resolved} :
      Did (.makeEndpoints port) (.resolved r) (.endpoints (endpointsOf port r)) []
  | lookupFailed {l : Leaf} {domain failure : String} {trace : TraceId} {rs : List LookupRecord} :
      OneLookup trace rs → some failure ∈ l.outcomes { lookups := rs } →
      Did l (.lookup domain) (.error ⟨l.name, failure⟩) [.traced trace, .saved { lookups := rs }]
  | lookedUp {l : Leaf} {domain : String} {trace : TraceId} {rs : List LookupRecord}
      {r : Resolved} :
      OneLookup trace rs → none ∈ l.outcomes { lookups := rs } →
      Did l (.lookup domain) (.resolved r) [.traced trace, .saved { lookups := rs }]
  | connectFailed {e : Endpoint} {trace : TraceId} {failure : String} :
      Did .tcpConnect (.endpoint e) (.error ⟨"tcp_connect", failure⟩)
        [.traced trace, .saved { connects := [TcpConnect.record trace e.address (.error failure)] }]
  | connected {e : Endpoint} {trace : TraceId} {stream : Stream} {slot : SlotId} :
      Did .tcpConnect (.endpoint e)
        (.connection {
          transport := .tcp, address := e.address, domain := e.domain, protocol := "", trace,
          slot })
        [.traced trace, .saved { connects := [TcpConnect.record trace e.address (.ok ())] },
          .established stream, .held stream slot]
  /-- A stream is used up by the handshake. -/
  | tlsFailed {options : HandshakeOptions} {offer : Tls.Offer} {c : Connection} {stream : Stream}
      {failure : String} :
      c.transport = .tcp →
      Did (.tlsHandshake options) (.connection c) (.error ⟨"tls_handshake", failure⟩)
        [.took c.slot (some stream), .lost stream,
          .saved { tlsHandshakes :=
            [handshakeRecord "tcp" c.trace c.address options offer (.error failure)] }]
  /-- A stream moves on to another slot. -/
  | tlsDone {options : HandshakeOptions} {offer : Tls.Offer} {c : Connection} {stream : Stream}
      {peer : Tls.Peer} {slot : SlotId} :
      c.transport = .tcp →
      Did (.tlsHandshake options) (.connection c)
        (.connection { c with transport := .tls, protocol := peer.protocolText, slot })
        [.took c.slot (some stream),
          .saved { tlsHandshakes :=
            [handshakeRecord "tcp" c.trace c.address options offer (.ok peer)] },
          .held { stream with transport := .tls } slot]
  | quicFailed {options : HandshakeOptions} {offer : Tls.Offer} {e : Endpoint} {trace : TraceId}
      {failure : String} :
      Did (.quicHandshake options) (.endpoint e) (.error ⟨"quic_handshake", failure⟩)
        [.traced trace, .saved { quicHandshakes :=
          [handshakeRecord "udp" trace e.address options offer (.error failure)] }]
  | quicDone {options : HandshakeOptions} {offer : Tls.Offer} {e : Endpoint} {trace : TraceId}
      {stream : Stream} {peer : Tls.Peer} {slot : SlotId} :
      Did (.quicHandshake options) (.endpoint e)
        (.connection {
          transport := .quic, address := e.address, domain := e.domain,
          protocol := peer.protocolText, trace, slot })
        [.traced trace, .saved { quicHandshakes :=
            [handshakeRecord "udp" trace e.address options offer (.ok peer)] },
          .established stream, .held stream slot]
  | requestFailed {a : HttpArguments} {c : Connection} {r : Http.Request} {failure : String}
      {ds : List Deed} :
      Borrows c.slot ds →
      Did (.httpTransaction a) (.connection c) (.error ⟨"http_transaction", failure⟩)
        (ds ++ [.saved (HttpTransaction.observations c r (.error failure))])
  | requested {a : HttpArguments} {c : Connection} {r : Http.Request} {parts : Http.ResponseParts}
      {ds : List Deed} :
      Borrows c.slot ds →
      Did (.httpTransaction a) (.connection c) (.response (HttpTransaction.response c r parts))
        (ds ++ [.saved (HttpTransaction.observations c r (.ok parts))])

namespace Leaf

theorem Did.eq_of_isSentinel {l : Leaf} {v w : Value} {ds : List Deed} (hdid : l.Did v w ds)
    (hv : v.isSentinel = true) : w = v ∧ ds = [] := by
  cases hdid with
  | passed => exact ⟨rfl, rfl⟩
  | refused hv' => rw [hv] at hv'; cases hv'
  | _ => cases hv

/-! ## Lookups -/

section Lookups

variable {domain : String} {o : Outcome Resolved} {ds : List Deed}

/-- What a lookup gives that found something or failed. -/
def lookupOutcome (domain : String) : Except String (List Ip) → Outcome Resolved
  | .ok addresses => .output { domain, addresses }
  | .error failure => .failed failure

theorem does_lookupOutcome {found : Except String (List Ip)} :
    (match found with
      | .ok addresses => pure (.output { domain, addresses })
      | .error failure => pure (.failed failure) : Script (Outcome Resolved)).Does o ds ↔
      o = lookupOutcome domain found ∧ ds = [] := by
  cases found <;> rfl

/-- A lookup that found something or failed, and left records of that. -/
theorem did_lookup {l : Leaf} {trace : TraceId} {rs : List LookupRecord}
    {found : Except String (List Ip)} (hone : OneLookup trace rs)
    (hfound : failureOf found ∈ l.outcomes { lookups := rs }) :
    l.Did (.lookup domain) ((lookupOutcome domain found).value l.name .resolved)
      [.traced trace, .saved { lookups := rs }] := by
  cases found with
  | error failure => exact .lookupFailed hone hfound
  | ok addresses => exact .lookedUp hone hfound

theorem did_lookupSystem {s : Scope} (h : (SystemLookup.call s domain).Does o ds) :
    lookupSystem.Did (.lookup domain) (o.value lookupSystem.name .resolved) ds := by
  have hcall : ∃ trace found, o = lookupOutcome domain found ∧ ds = [.traced trace,
      .saved { lookups := [SystemLookup.record trace domain found] }] := by
    by_cases hdomain : domain = ""
    · obtain ⟨rfl, trace, rfl⟩ := by simpa [SystemLookup.call, hdomain] using h
      exact ⟨trace, _, rfl, by rw [hdomain]⟩
    · obtain ⟨trace, _, found, ds₁, ds₂, ⟨hfound, ho⟩, rfl⟩ := by
        simpa [SystemLookup.call, hdomain] using h
      obtain ⟨answer, hanswer, -⟩ := Script.does_map.1 hfound
      obtain rfl : ds₁ = [] := Script.does_attempt.1 hanswer
      obtain ⟨rfl, rfl⟩ := does_lookupOutcome.1 ho
      exact ⟨trace, found, rfl, rfl⟩
  obtain ⟨trace, found, rfl, rfl⟩ := hcall
  have hfound : failureOf found
      ∈ lookupSystem.outcomes { lookups := [SystemLookup.record trace domain found] } := by
    simp [outcomes, SystemLookup.record]
  have hengine : (SystemLookup.record trace domain found).engine ≠ "udp" := by
    simp [SystemLookup.record]
  exact did_lookup (.one rfl hengine) hfound

/-! ### Asking a resolver -/

theorem ne_nil_of_decodeResponse {msg : Dns.Bytes} {type : Dns.RecordType}
    {records : List Dns.AddressRecord} (h : Dns.decodeResponse msg type = .ok records) :
    records ≠ [] := by
  simp only [Dns.decodeResponse, bind_eq_ok_iff] at h
  obtain ⟨_, -, _, -, _, -, _, -, _, -, _, -, _, -, _, -, found, -, h⟩ := h
  split at h
  · cases h
  · next hempty =>
    obtain rfl := Except.ok.inj h
    rwa [List.isEmpty_iff] at hempty

/-- Whether a query for a type of records may come to this: any failure, or what some response is
    decoded to. -/
def IsFoundFor (type : Dns.RecordType) (found : UdpLookup.Found) : Prop :=
  ∀ records, found = .ok records → ∃ msg, Dns.decodeResponse msg type = .ok records

theorem isFoundFor_error (type : Dns.RecordType) (failure : String) :
    IsFoundFor type (.error failure) := nofun

/-- A query that succeeds finds an address. -/
theorem IsFoundFor.ne_nil {type : Dns.RecordType} {found : UdpLookup.Found}
    (h : IsFoundFor type found) : found ≠ .ok [] := by
  intro hnil
  obtain ⟨msg, hmsg⟩ := h [] hnil
  exact ne_nil_of_decodeResponse hmsg rfl

theorem isFoundFor_received (query : List UInt8) (type : Dns.RecordType)
    (answer : Except Interruption Dns.Inbox) :
    IsFoundFor type (UdpLookup.received query type answer) := by
  intro records hrecords
  cases answer with
  | error i => cases hrecords
  | ok inbox =>
    have hread : Dns.readReply query type inbox = .ok records := hrecords
    rw [Dns.readReply] at hread
    split at hread
    · cases hread
    next reply _ =>
    split at hread
    · next found hdecode =>
      obtain rfl := Except.ok.inj hread
      exact ⟨reply, hdecode⟩
    · cases hread

/-- Neither query succeeds but with what a response is decoded to, and nothing is done but
    asking. -/
theorem does_query {c : Context} {resolver : Resolver} {a b : UdpLookup.Found}
    (h : (UdpLookup.query c resolver domain).Does (a, b) ds) :
    IsFoundFor Dns.typeA a ∧ IsFoundFor Dns.typeAAAA b ∧ ds = [] := by
  simp only [UdpLookup.query, Script.does_bind, Script.does_randomWord] at h
  obtain ⟨_, _, rfl, _, ⟨_, _, rfl, _, h, rfl⟩, rfl⟩ := h
  split at h
  · obtain ⟨hab, rfl⟩ := h
    obtain ⟨rfl, rfl⟩ := Prod.mk.inj hab
    exact ⟨isFoundFor_error _ _, isFoundFor_error _ _, rfl⟩
  · obtain ⟨hab, rfl⟩ := h
    obtain ⟨rfl, rfl⟩ := Prod.mk.inj hab
    exact ⟨isFoundFor_error _ _, isFoundFor_error _ _, rfl⟩
  · obtain ⟨hab, rfl⟩ := h
    obtain ⟨rfl, rfl⟩ := Prod.mk.inj hab
    exact ⟨isFoundFor_error _ _, isFoundFor_error _ _, rfl⟩
  · obtain ⟨_, _, hattempts, _, ⟨hab, rfl⟩, rfl⟩ := Script.does_bind.1 h
    obtain ⟨rfl, rfl⟩ := Prod.mk.inj hab
    obtain rfl := Script.does_attemptBoth.1 hattempts
    exact ⟨isFoundFor_received _ _ _, isFoundFor_received _ _ _, rfl⟩

theorem distinct_eq_nil_iff {ips : List Ip} : distinct ips = [] ↔ ips = [] := by
  cases ips <;> simp [distinct]

/-- What two queries come to is the failure of one, or the success of one. -/
theorem merge_outcome {a b : UdpLookup.Found} (ha : a ≠ .ok []) (hb : b ≠ .ok []) :
    failureOf (UdpLookup.merge a b) ∈ [failureOf a, failureOf b] := by
  simp only [UdpLookup.merge, List.isEmpty_iff, distinct_eq_nil_iff, List.append_eq_nil_iff]
  cases a with
  | ok found =>
    cases found with
    | nil => exact absurd rfl ha
    | cons _ _ => simp [UdpLookup.addresses, failureOf]
  | error f =>
    cases b with
    | ok found =>
      cases found with
      | nil => exact absurd rfl hb
      | cons _ _ => simp [UdpLookup.addresses, failureOf]
    | error g =>
      -- The failure is one of the two, or both are the one that it is for want of a better one.
      by_cases hf : f = FailureName.dnsNoAnswer <;> by_cases hg : g = FailureName.dnsNoAnswer <;>
        simp [UdpLookup.addresses, UdpLookup.failure, failureOf, hf, hg]

theorem did_lookupUdp {s : Scope} {resolver : Resolver}
    (h : (UdpLookup.call s resolver domain).Does o ds) :
    (lookupUdp resolver).Did (.lookup domain) (o.value (lookupUdp resolver).name .resolved) ds := by
  obtain ⟨trace, _, a, b, ds₁, ds₂, ⟨hquery, ho⟩, rfl⟩ := by simpa [UdpLookup.call] using h
  obtain ⟨ha, hb, rfl⟩ := does_query hquery
  obtain ⟨rfl, rfl⟩ := does_lookupOutcome.1 ho
  refine did_lookup (.two rfl rfl rfl rfl rfl rfl) ?_
  have hmerge := merge_outcome ha.ne_nil hb.ne_nil
  simpa [outcomes, UdpLookup.record] using hmerge

/-! ### Addresses of the program -/

theorem did_lookupStatic {ips : List Ip} (h : (StaticLookup.call ips domain).Does o ds) :
    (lookupStatic ips).Did (.lookup domain) (o.value (lookupStatic ips).name .resolved) ds := by
  obtain ⟨rfl, trace, rfl⟩ := by simpa [StaticLookup.call] using h
  exact .lookedUp (.one rfl (by simp [StaticLookup.record]))
    (by simp [outcomes, StaticLookup.record])

end Lookups

/-! ## Connections -/

section Connections

variable {s : Scope} {ds : List Deed}

theorem did_tcpConnect {e : Endpoint} {o : Outcome Connection}
    (h : (TcpConnect.call s e).Does o ds) :
    tcpConnect.Did (.endpoint e) (o.value tcpConnect.name .connection) ds := by
  obtain ⟨trace, answer, rest, ho, rfl⟩ := by simpa [TcpConnect.call] using h
  cases hresult : unlessInterrupted unlessBroken answer with
  | error failure =>
    rw [hresult] at ho
    obtain ⟨rfl, rfl⟩ := ho
    exact .connectFailed
  | ok _ =>
    rw [hresult] at ho
    obtain ⟨stream, slot, rfl, rfl⟩ := by simpa using ho
    exact .connected

/-- A text that starts otherwise. -/
theorem not_mem_unavailableTexts {text : String}
    (h : text.toList.take 2 ∉ [['T', 'C'], ['c', 'o']]) : text ∉ unavailableTexts := by
  intro hmem
  simp only [unavailableTexts, List.mem_cons, List.not_mem_nil, or_false] at hmem
  rcases hmem with rfl | rfl <;> exact h (by decide)

theorem rootFault_not_mem (fault : Tls.RootFault) : fault.message ∉ unavailableTexts := by
  cases fault with
  | unreadable fault =>
    show "cannot parse PEM certificate: " ++ fault.message ∉ unavailableTexts
    exact not_mem_unavailableTexts (by simp)
  | malformed =>
    show "cannot use certificate: " ++ _ ∉ unavailableTexts
    exact not_mem_unavailableTexts (by simp)
  | none =>
    show "no usable certificate in x509_certs" ∉ unavailableTexts
    exact not_mem_unavailableTexts (by decide)

/-- A handshake over a stream that was taken out of its slot. -/
theorem did_run {options : HandshakeOptions} {offer : Tls.Offer} {c : Connection} {stream : Stream}
    {o : Outcome Connection} (hc : c.transport = .tcp)
    (h : (TlsHandshake.run s options offer c stream).Does o ds) :
    (tlsHandshake options).Did (.connection c) (o.value (tlsHandshake options).name .connection)
      (.took c.slot (some stream) :: ds) := by
  obtain ⟨answer, rest, ho, rfl⟩ := by simpa [TlsHandshake.run] using h
  cases hresult : unlessInterrupted unlessBroken answer with
  | error failure =>
    rw [hresult] at ho
    obtain ⟨rfl, rfl⟩ := ho
    exact .tlsFailed hc
  | ok peer =>
    rw [hresult] at ho
    obtain ⟨slot, rfl, rfl⟩ := by simpa using ho
    exact .tlsDone hc

theorem did_tlsHandshake {options : HandshakeOptions} {c : Connection} {o : Outcome Connection}
    (hc : c.transport = .tcp) (h : (TlsHandshake.call s options c).Does o ds) :
    (tlsHandshake options).Did (.connection c)
      (o.value (tlsHandshake options).name .connection) ds := by
  rw [TlsHandshake.call] at h
  split at h
  · next fault _ =>
    obtain ⟨rfl, rfl⟩ := h
    exact .refused rfl (rootFault_not_mem fault)
  · next offer _ =>
    split at h
    · obtain ⟨rfl, rfl⟩ := h
      exact .refused rfl (not_mem_unavailableTexts (by simp))
    · obtain ⟨found, _, hfound, rest, hrest, rfl⟩ := Script.does_bind.1 h
      obtain rfl := Script.does_take.1 hfound
      cases found with
      | none =>
        obtain ⟨rfl, rfl⟩ := hrest
        exact .unavailable
      | some stream => exact did_run hc hrest

/-- Shaking hands over datagrams does nothing but attempts. -/
theorem does_shake {c : Context} {address : SocketAddress} {offer : Tls.Offer}
    {result : Except String Tls.Peer} (h : (QuicHandshake.shake c address offer).Does result ds) :
    ds = [] := by
  rw [QuicHandshake.shake] at h
  split at h
  · obtain ⟨_, -, rfl⟩ := by simpa using h
    rfl
  · obtain ⟨_, -, rfl⟩ := by simpa using h
    rfl

theorem did_quicHandshake {options : HandshakeOptions} {e : Endpoint} {o : Outcome Connection}
    (h : (QuicHandshake.call s options e).Does o ds) :
    (quicHandshake options).Did (.endpoint e)
      (o.value (quicHandshake options).name .connection) ds := by
  rw [QuicHandshake.call] at h
  split at h
  · next fault _ =>
    obtain ⟨rfl, rfl⟩ := h
    exact .refused rfl (rootFault_not_mem fault)
  · obtain ⟨trace, _, result, ds₁, ds₂, ⟨hshake, ho⟩, rfl⟩ := by simpa using h
    obtain rfl := does_shake hshake
    cases result with
    | error failure =>
      obtain ⟨rfl, rfl⟩ := ho
      exact .quicFailed
    | ok peer =>
      obtain ⟨stream, slot, rfl, rfl⟩ := by simpa using ho
      exact .quicDone

/-! ## Requests -/

theorem requestFault_not_mem (fault : Http.RequestFault) : fault.message ∉ unavailableTexts := by
  cases fault with
  | method text =>
    show "invalid method " ++ Text.quote text ∉ unavailableTexts
    exact not_mem_unavailableTexts (by simp)
  | url text fault =>
    show "invalid URL " ++ text ++ ": " ++ fault.message ∉ unavailableTexts
    exact not_mem_unavailableTexts (by simp)
  | lineBreak field =>
    -- The field may be any text, but what follows it is not what the texts end in.
    show field ++ " contains a line break" ∉ unavailableTexts
    intro hmem
    have hlast : (field ++ " contains a line break").toList.getLast? = some 'k' := by simp
    simp only [unavailableTexts, List.mem_cons, List.not_mem_nil, or_false] at hmem
    rcases hmem with h | h <;> rw [h] at hlast <;> exact absurd hlast (by decide)

theorem does_exchange {c : Context} {id : SlotId} {r : Http.Request} {limit : UInt64}
    {found : Option (Except String Http.ResponseParts)}
    (h : (HttpTransaction.exchange c id r limit).Does found ds) :
    (found = none ∧ ds = [.took id none]) ∨ (∃ result, found = some result) ∧ Borrows id ds := by
  obtain ⟨stream?, rest, hrest, rfl⟩ := by simpa [HttpTransaction.exchange] using h
  cases stream? with
  | none =>
    obtain ⟨rfl, rfl⟩ := hrest
    exact .inl ⟨rfl, rfl⟩
  | some stream =>
    obtain ⟨⟨answer, rfl⟩, rfl⟩ := by simpa using hrest
    exact .inr ⟨⟨_, rfl⟩, .stream stream⟩

theorem does_exchangeFrames {c : Context} {id : SlotId} {r : Http.Request} {limit : UInt64}
    {found : Option (Except String Http.ResponseParts)}
    (h : (HttpTransaction.exchangeFrames c id r limit).Does found ds) :
    (found = none ∧ ds = [.took id none]) ∨ (∃ result, found = some result) ∧ Borrows id ds := by
  obtain ⟨stream?, rest, hrest, rfl⟩ := by simpa [HttpTransaction.exchangeFrames] using h
  cases stream? with
  | none =>
    obtain ⟨rfl, rfl⟩ := hrest
    exact .inl ⟨rfl, rfl⟩
  | some stream =>
    obtain ⟨rest, hanswer, rfl⟩ := by simpa using hrest
    split at hanswer
    · obtain ⟨⟨answer, rfl⟩, rfl⟩ := by simpa using hanswer
      exact .inr ⟨⟨_, rfl⟩, .stream stream⟩
    · obtain ⟨⟨answer, rfl⟩, rfl⟩ := by simpa using hanswer
      exact .inr ⟨⟨_, rfl⟩, .stream stream⟩

theorem does_exchangeOver {child : Context} {c : Connection} {r : Http.Request} {limit : UInt64}
    {found : Option (Except String Http.ResponseParts)}
    (h : (HttpTransaction.run child c r limit).Does found ds) :
    (found = none ∧ ds = [.took c.slot none]) ∨
      (∃ result, found = some result) ∧ Borrows c.slot ds := by
  rw [HttpTransaction.run] at h
  split at h
  · exact does_exchange h
  · split at h
    · obtain ⟨rfl, rfl⟩ := h
      exact .inr ⟨⟨_, rfl⟩, .nothing⟩
    · exact does_exchange h
  · exact does_exchangeFrames h

theorem did_httpTransaction {a : HttpArguments} {c : Connection} {o : Outcome Response}
    (h : (HttpTransaction.call s a c).Does o ds) :
    (httpTransaction a).Did (.connection c) (o.value (httpTransaction a).name .response) ds := by
  rw [HttpTransaction.call] at h
  split at h
  · next fault _ =>
    obtain ⟨rfl, rfl⟩ := h
    exact .refused rfl (requestFault_not_mem fault)
  · next request _ =>
    obtain ⟨_, found, ds₁, rest, ⟨hrun, ho⟩, rfl⟩ := by simpa using h
    rcases does_exchangeOver hrun with ⟨rfl, rfl⟩ | ⟨⟨result, rfl⟩, hborrows⟩
    · obtain ⟨rfl, rfl⟩ := ho
      exact .unavailable
    · cases result with
      | error failure =>
        obtain ⟨rfl, rfl⟩ := by simpa using ho
        exact .requestFailed hborrows
      | ok parts =>
        obtain ⟨rfl, rfl⟩ := by simpa using ho
        exact .requested hborrows

end Connections

/-! ## All leaves -/

/-- A value of a kind that the leaf does not take. -/
theorem did_unexpected (l : Leaf) {v : Value} (hv : v.isSentinel = false) :
    l.Did v (Value.unexpected l.name v) [] := by
  have htext : l.name ++ ": unexpected " ++ v.kind.name ++ " type"
      = l.name ++ ": " ++ ("unexpected " ++ v.kind.name ++ " type") := by
    simp [← String.toList_inj]
  rw [Value.unexpected, htext]
  exact .refused hv (not_mem_unavailableTexts (by simp))

theorem did_typed {α : Type} {l : Leaf} {accept : Value → Option α} {call : α → Activity}
    {v w : Value} {h : List Action}
    (hcall : ∀ a, accept v = some a → Traces (call a) w h → l.Did v w (deeds h))
    (htraces : Traces (typed l.name accept call v) w h) : l.Did v w (deeds h) := by
  rw [typed] at htraces
  split at htraces
  · next hv =>
    obtain ⟨rfl, rfl⟩ := htraces.of_done
    exact .passed hv
  · next hv =>
    split at htraces
    · next a ha => exact hcall a ha htraces
    · obtain ⟨rfl, rfl⟩ := htraces.of_done
      exact l.did_unexpected (Bool.not_eq_true _ ▸ hv)

theorem did_measure {α β : Type} {l : Leaf} {accept : Value → Option α} {wrap : β → Value}
    {script : α → Script (Outcome β)} {v w : Value} {h : List Action}
    (hscript : ∀ a o, accept v = some a → (script a).Does o (deeds h) →
      l.Did v (o.value l.name wrap) (deeds h))
    (htraces : Traces (l.measure accept wrap script v) w h) : l.Did v w (deeds h) :=
  did_typed (fun a ha hcall => by
    obtain ⟨o, ho, rfl⟩ := Script.exists_outcome hcall
    exact hscript a o ha ho) htraces

/-- Whatever a call of a leaf comes to, it is one of these cases. -/
theorem did_of_traces {s : Scope} {l : Leaf} {v w : Value} {h : List Action}
    (htraces : Traces (l.apply s v) w h) : l.Did v w (deeds h) := by
  cases l with
  | domainName domain =>
    refine did_typed (fun _ ha hdone => ?_) htraces
    obtain rfl := Value.eq_of_void? ha
    obtain ⟨rfl, rfl⟩ := hdone.of_done
    exact .domainName
  | makeEndpoints port =>
    refine did_typed (fun r ha hdone => ?_) htraces
    obtain rfl := Value.eq_of_resolved? ha
    obtain ⟨rfl, rfl⟩ := hdone.of_done
    exact .makeEndpoints
  | lookupSystem =>
    exact did_measure (fun _ _ ha ho => Value.eq_of_lookup? ha ▸ did_lookupSystem ho) htraces
  | lookupUdp resolver =>
    exact did_measure (fun _ _ ha ho => Value.eq_of_lookup? ha ▸ did_lookupUdp ho) htraces
  | lookupStatic ips =>
    exact did_measure (fun _ _ ha ho => Value.eq_of_lookup? ha ▸ did_lookupStatic ho) htraces
  | tcpConnect =>
    exact did_measure (fun _ _ ha ho => Value.eq_of_endpoint? ha ▸ did_tcpConnect ho) htraces
  | tlsHandshake options =>
    refine did_measure (fun c _ ha ho => ?_) htraces
    obtain ⟨rfl, hc⟩ := Value.eq_of_connectionOver? ha
    exact did_tlsHandshake hc ho
  | quicHandshake options =>
    exact did_measure (fun _ _ ha ho => Value.eq_of_endpoint? ha ▸ did_quicHandshake ho) htraces
  | httpTransaction a =>
    exact did_measure (fun _ _ ha ho => Value.eq_of_connection? ha ▸ did_httpTransaction ho) htraces

end Leaf

end NetProbe
