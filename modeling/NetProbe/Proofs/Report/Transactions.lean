import NetProbe.Proofs.Operation.Flow
import NetProbe.Proofs.Program.Construction
import NetProbe.Proofs.Report.Evaluation
set_option autoImplicit false

/-! # Transactions are coherent

Every record belongs to the transaction of a trace, and traces are handed out once: so the lookups,
the connections over TCP and those over QUIC in a report have the traces from one on. A handshake of
TLS and a request go on with the trace of their connection. Since connections are never doubled,
no trace is gone on with twice: `Leaf.Files` says what a call saves for the connections that it
takes and gives, and the flow of connections does the rest. -/

namespace NetProbe

/-! ## Coherence -/

namespace Observations

/-- The lookups by the resolvers of programs for one type of records. -/
def asked (o : Observations) (type : String) : List LookupRecord :=
  o.lookups.filter fun r => r.engine = "udp" ∧ r.queryType = type

/-- The traces of the attempts that got one: lookups, connections over TCP and over QUIC. The lookup
    of a resolver is one attempt, with a record for each type of addresses. -/
def attempts (o : Observations) : List TraceId :=
  (o.lookups.filter fun r => ¬(r.engine = "udp" ∧ r.queryType = "AAAA")).map (·.trace) ++
    o.connects.map (·.trace) ++ o.quicHandshakes.map (·.trace)

/-- The connections over TCP that were made to an address with a trace. -/
def connected (o : Observations) (trace : TraceId) (address : String) : List ConnectRecord :=
  o.connects.filter fun r => r.trace = trace ∧ r.failure = none ∧
    ({ ip := r.address, port := r.port } : SocketAddress).text = address

/-- The connections over QUIC that were made to an address with a trace. -/
def connectedQuic (o : Observations) (trace : TraceId) (address : String) : List HandshakeRecord :=
  o.quicHandshakes.filter fun r => r.trace = trace ∧ r.failure = none ∧ r.address = address

/-- The events that come with a request. -/
def eventsOf (r : ExchangeRecord) : List NetworkEvent :=
  [{ operation := "http_transaction_start", trace := r.trace },
    { operation := "http_transaction_done", trace := r.trace }]

/-- The records of an evaluation that handed out some traces and consists of some calls fit
    together. -/
structure Coherent (o : Observations) (traces : Nat) (calls : List Call) : Prop where
  /-- Every trace is that of one attempt. -/
  attempts : o.attempts.Perm ((List.range' 1 traces).map Int.ofNat)
  /-- Both records of an attempt have its trace. -/
  asked : ((o.asked "AAAA").map (·.trace)).Perm ((o.asked "A").map (·.trace))
  tls : ∀ r ∈ o.tlsHandshakes, (o.connected r.trace r.address).length = 1
  tlsOnce : (o.tlsHandshakes.map (·.trace)).Nodup
  requests : ∀ r ∈ o.requests,
    (o.connected r.trace r.address).length + (o.connectedQuic r.trace r.address).length = 1
  requestsOnce : (o.requests.map (·.trace)).Nodup
  /-- A call that goes on with a connection over TLS has a handshake before it that succeeded. -/
  overTls : ∀ r ∈ o.requests, ∃ call ∈ calls, ∃ c, call.input = .connection c ∧
    r ∈ (recorded call.history).requests ∧
    (c.transport = .tls → ∃ t ∈ o.tlsHandshakes, t.trace = r.trace ∧ t.failure = none)
  events : o.events.Perm (o.requests.flatMap eventsOf)

/-! ## Kinds of records -/

def tlsTraces (o : Observations) : Multiset TraceId := ↑(o.tlsHandshakes.map (·.trace))

def requestTraces (o : Observations) : Multiset TraceId := ↑(o.requests.map (·.trace))

theorem additive_attempts : Additive fun o => (↑o.attempts : Multiset TraceId) := by
  have hlookups : Additive fun o => (↑((o.lookups.filter fun r =>
      ¬(r.engine = "udp" ∧ r.queryType = "AAAA")).map (·.trace)) : Multiset TraceId) :=
    .ofList rfl fun a b => by simp
  have hconnects : Additive fun o => (↑(o.connects.map (·.trace)) : Multiset TraceId) :=
    .ofList rfl fun a b => by simp
  have hquic : Additive fun o => (↑(o.quicHandshakes.map (·.trace)) : Multiset TraceId) :=
    .ofList rfl fun a b => by simp
  exact (hlookups.add hconnects).add hquic

theorem additive_asked (type : String) :
    Additive fun o => (↑((o.asked type).map (·.trace)) : Multiset TraceId) :=
  .ofList rfl fun a b => by simp [asked]

theorem additive_tlsTraces : Additive tlsTraces :=
  .ofList rfl fun a b => by simp

theorem additive_requestTraces : Additive requestTraces :=
  .ofList rfl fun a b => by simp

theorem additive_requests : Additive fun o => (↑o.requests : Multiset ExchangeRecord) :=
  .ofList rfl fun _ _ => rfl

theorem additive_connects : Additive fun o => (↑o.connects : Multiset ConnectRecord) :=
  .ofList rfl fun _ _ => rfl

theorem additive_tlsHandshakes : Additive fun o => (↑o.tlsHandshakes : Multiset HandshakeRecord) :=
  .ofList rfl fun _ _ => rfl

theorem additive_quicHandshakes :
    Additive fun o => (↑o.quicHandshakes : Multiset HandshakeRecord) :=
  .ofList rfl fun _ _ => rfl

theorem additive_events : Additive fun o => (↑o.events : Multiset NetworkEvent) :=
  .ofList rfl fun _ _ => rfl

theorem additive_eventsOf :
    Additive fun o => (↑(o.requests.flatMap eventsOf) : Multiset NetworkEvent) :=
  .ofList rfl fun a b => by simp

/-! ## Attempts with different traces -/

section Different

/-- One member of a list is picked by its key. -/
theorem length_filter_eq_one {α β : Type} {l : List α} {f : α → β} {p : α → Bool} {a : α}
    (hl : (l.map f).Nodup) (ha : a ∈ l) (hp : p a = true)
    (hkey : ∀ b, p b = true → f b = f a) : (l.filter p).length = 1 := by
  have hperm : (l.filter p).Perm [a] := by
    refine (List.perm_ext_iff_of_nodup (hl.of_map.filter p) (List.nodup_singleton a)).2 fun b => ?_
    rw [List.mem_filter, List.mem_singleton]
    constructor
    · rintro ⟨hb, hpb⟩
      exact List.inj_on_of_nodup_map hl hb ha (hkey b hpb)
    · rintro rfl
      exact ⟨ha, hp⟩
  exact hperm.length_eq

variable {o : Observations} (ho : o.attempts.Nodup)

include ho

theorem trace_ne_trace {r : ConnectRecord} (hr : r ∈ o.connects) {q : HandshakeRecord}
    (hq : q ∈ o.quicHandshakes) : r.trace ≠ q.trace := by
  obtain ⟨-, -, hdisjoint⟩ := List.nodup_append.1 ho
  exact hdisjoint _ (List.mem_append_right _ (List.mem_map_of_mem hr)) _ (List.mem_map_of_mem hq)

theorem length_connected {r : ConnectRecord} (hr : r ∈ o.connects) (hfailure : r.failure = none)
    {address : String}
    (haddress : ({ ip := r.address, port := r.port } : SocketAddress).text = address) :
    (o.connected r.trace address).length = 1 ∧ o.connectedQuic r.trace address = [] := by
  obtain ⟨hfirst, -, -⟩ := List.nodup_append.1 ho
  obtain ⟨-, hconnects, -⟩ := List.nodup_append.1 hfirst
  refine ⟨length_filter_eq_one hconnects hr (by simp [hfailure, haddress]) fun b hb => ?_, ?_⟩
  · exact (of_decide_eq_true hb).1
  · exact List.filter_eq_nil_iff.2 fun q hq hp =>
      trace_ne_trace ho hr hq (of_decide_eq_true hp).1.symm

theorem length_connectedQuic {r : HandshakeRecord} (hr : r ∈ o.quicHandshakes)
    (hfailure : r.failure = none) :
    (o.connectedQuic r.trace r.address).length = 1 ∧ o.connected r.trace r.address = [] := by
  obtain ⟨-, hquic, -⟩ := List.nodup_append.1 ho
  refine ⟨length_filter_eq_one hquic hr (by simp [hfailure]) fun b hb => ?_, ?_⟩
  · exact (of_decide_eq_true hb).1
  · exact List.filter_eq_nil_iff.2 fun q hq hp => trace_ne_trace ho hq hr (of_decide_eq_true hp).1

end Different

end Observations

/-! ## Calls -/

/-- The trace of a connection. -/
def traceOf (c : Connection) : Multiset TraceId := {c.trace}

/-- The trace of a connection over TCP that has no TLS on it. -/
def plainTraceOf (c : Connection) : Multiset TraceId :=
  if c.transport = .tcp then {c.trace} else 0

theorem plainTraceOf_eq {c : Connection} (hc : c.transport = .tcp) : plainTraceOf c = {c.trace} :=
  if_pos hc

namespace Leaf

open Observations

variable {l : Leaf} {v w : Value} {ds : List Deed}

/-- The records that a call saves: what they have to do with the traces that the call is handed out,
    with the connection that it takes and with the one that it gives. -/
structure Files (v w : Value) (ds : List Deed) (o : Observations) : Prop where
  attempts : o.attempts.Perm (traced ds) := by exact .refl _
  asked : ((o.asked "AAAA").map (·.trace)).Perm ((o.asked "A").map (·.trace)) := by exact .refl _
  events : o.events = o.requests.flatMap eventsOf := by rfl
  /-- Who goes on with a trace has taken its connection. -/
  taken_le : o.requestTraces + o.tlsTraces ≤ v.weight traceOf := by exact zero_le
  /-- The trace of a connection that is given is new, or that of a handshake. -/
  given_le : w.weight traceOf ≤ o.tlsTraces + ↑(traced ds) := by exact zero_le
  /-- Handshakes of TLS take connections without TLS. -/
  plain_taken_le : o.tlsTraces ≤ v.weight plainTraceOf := by exact zero_le
  /-- The trace of such a connection is new. -/
  plain_given_le : w.weight plainTraceOf ≤ ↑(traced ds) := by exact zero_le

/-- A call that saves nothing and gives no connection. -/
theorem files_nothing (hsaves : saves ds = []) (htraced : traced ds = [])
    (hw : ∀ f : Connection → Multiset TraceId, w.weight f = 0) :
    Files v w ds (reduce (saves ds)) := by
  rw [hsaves]
  exact {
    attempts := by rw [htraced]; exact .refl []
    given_le := by rw [hw]; exact zero_le
    plain_given_le := by rw [hw]; exact zero_le }

theorem files_lookup {trace : TraceId} {rs : List LookupRecord} (hone : OneLookup trace rs)
    (hw : ∀ f : Connection → Multiset TraceId, w.weight f = 0) :
    Files v w [.traced trace, .saved { lookups := rs }] { lookups := rs } where
  attempts := by
    cases hone with
    | one htrace hengine => simp [Observations.attempts, traced, Deed.traced?, htrace, hengine]
    | two ha haEngine haType hb hbEngine hbType =>
      simp [Observations.attempts, traced, Deed.traced?, ha, haEngine, haType, hbEngine, hbType]
  asked := by
    cases hone with
    | one htrace hengine => simp [Observations.asked, hengine]
    | two ha haEngine haType hb hbEngine hbType =>
      simp [Observations.asked, ha, haEngine, haType, hb, hbEngine, hbType]
  given_le := by rw [hw]; exact zero_le
  plain_given_le := by rw [hw]; exact zero_le

theorem files_request {c : Connection} {r : Http.Request}
    {result : Except String Http.ResponseParts} (hds : Borrows c.slot ds)
    (hw : ∀ f : Connection → Multiset TraceId, w.weight f = 0) :
    Files (.connection c) w (ds ++ [.saved (HttpTransaction.observations c r result)])
      (reduce (saves (ds ++ [.saved (HttpTransaction.observations c r result)]))) := by
  have htraced : traced (ds ++ [.saved (HttpTransaction.observations c r result)]) = [] := by
    cases hds <;> rfl
  have hsaves : saves (ds ++ [.saved (HttpTransaction.observations c r result)])
      = [HttpTransaction.observations c r result] := by
    cases hds <;> rfl
  rw [hsaves]
  exact {
    attempts := by rw [htraced]; exact .refl []
    taken_le := by
      show _ ≤ ({c.trace} : Multiset TraceId)
      exact le_refl _
    given_le := by rw [hw]; exact zero_le
    plain_given_le := by rw [hw]; exact zero_le }

theorem Did.files (hdid : l.Did v w ds) : Files v w ds (reduce (saves ds)) := by
  cases hdid with
  | passed hv => exact files_nothing rfl rfl fun f => v.weight_of_isSentinel hv f
  | refused => exact files_nothing rfl rfl fun _ => rfl
  | unavailable => exact files_nothing rfl rfl fun _ => rfl
  | domainName => exact files_nothing rfl rfl fun _ => rfl
  | makeEndpoints => exact files_nothing rfl rfl fun _ => rfl
  | lookupFailed hone => exact files_lookup hone fun _ => rfl
  | lookedUp hone => exact files_lookup hone fun _ => rfl
  | connectFailed => exact {}
  | connected => exact { given_le := le_rfl, plain_given_le := le_rfl }
  | tlsFailed hc => exact { taken_le := le_rfl, plain_taken_le := (plainTraceOf_eq hc).ge }
  | tlsDone hc =>
    -- The connection that is given is not a plain one any more.
    exact { taken_le := le_rfl, given_le := le_rfl, plain_taken_le := (plainTraceOf_eq hc).ge }
  | quicFailed => exact {}
  | quicDone => exact { given_le := le_rfl }
  | requestFailed hds => exact files_request hds fun _ => rfl
  | requested hds => exact files_request hds fun _ => rfl

/-! ### Where connections come from -/

theorem Did.tls_source {r : HandshakeRecord} (hdid : l.Did v w ds)
    (hr : r ∈ (reduce (saves ds)).tlsHandshakes) :
    ∃ c, v = .connection c ∧ c.transport = .tcp ∧ r.trace = c.trace ∧
      r.address = c.address.text := by
  cases hdid with
  | @tlsFailed _ _ c _ _ hc =>
    obtain rfl := List.mem_singleton.1 hr
    exact ⟨c, rfl, hc, rfl, rfl⟩
  | @tlsDone _ _ c _ _ _ hc =>
    obtain rfl := List.mem_singleton.1 hr
    exact ⟨c, rfl, hc, rfl, rfl⟩
  | requestFailed hds => cases hds <;> cases hr
  | requested hds => cases hds <;> cases hr
  | _ => cases hr

theorem Did.request_source {r : ExchangeRecord} (hdid : l.Did v w ds)
    (hr : r ∈ (reduce (saves ds)).requests) :
    ∃ c, v = .connection c ∧ r.trace = c.trace ∧ r.address = c.address.text := by
  cases hdid with
  | @requestFailed _ c _ _ _ hds =>
    cases hds <;> obtain rfl := List.mem_singleton.1 hr <;> exact ⟨c, rfl, rfl, rfl⟩
  | @requested _ c _ _ _ hds =>
    cases hds <;> obtain rfl := List.mem_singleton.1 hr <;> exact ⟨c, rfl, rfl, rfl⟩
  | _ => cases hr

variable {c : Connection}

theorem Did.exists_connect (hdid : l.Did v (.connection c) ds) (hc : c.transport = .tcp) :
    ∃ r ∈ (reduce (saves ds)).connects, r.trace = c.trace ∧ r.failure = none ∧
      r.address = c.address.ip ∧ r.port = c.address.port := by
  cases hdid with
  | passed hv => cases hv
  | connected => exact ⟨_, List.mem_singleton_self _, rfl, rfl, rfl, rfl⟩
  | tlsDone => cases hc
  | quicDone => cases hc

theorem Did.exists_tls (hdid : l.Did v (.connection c) ds) (hc : c.transport = .tls) :
    (∃ below : Connection, v = .connection below ∧ below.transport = .tcp ∧
      below.trace = c.trace ∧ below.address = c.address) ∧
    ∃ r ∈ (reduce (saves ds)).tlsHandshakes, r.trace = c.trace ∧ r.failure = none := by
  cases hdid with
  | passed hv => cases hv
  | connected => cases hc
  | @tlsDone _ _ below _ _ _ hbelow =>
    exact ⟨⟨below, rfl, hbelow, rfl, rfl⟩, _, List.mem_singleton_self _, rfl, rfl⟩
  | quicDone => cases hc

theorem Did.exists_quic (hdid : l.Did v (.connection c) ds) (hc : c.transport = .quic) :
    ∃ r ∈ (reduce (saves ds)).quicHandshakes, r.trace = c.trace ∧ r.failure = none ∧
      r.address = c.address.text := by
  cases hdid with
  | passed hv => cases hv
  | connected => cases hc
  | tlsDone => cases hc
  | quicDone => exact ⟨_, List.mem_singleton_self _, rfl, rfl, rfl⟩

end Leaf

/-! ## Evaluations -/

namespace Operation.Evaluates

open Observations

variable {n : Node} {op : Operation} {s : Scope} {h : List Action} {v : Value} {calls : List Call}
  (heval : op.Evaluates s v h calls) (hop : (Registry.standard.compile n).result = .ok op)

include heval hop

theorem files {call : Call} (hcall : call ∈ calls) :
    Leaf.Files call.input call.output (deeds call.history) (recorded call.history) := by
  obtain ⟨l, hdid⟩ := heval.did hop hcall
  exact hdid.files

theorem weightIn_le {α : Type} (f : Connection → Multiset α) :
    weightIn f calls ≤ weightOut f calls := by
  obtain ⟨_, -, hflows⟩ := heval.good hop (Course.invariant_flows f)
  rw [Course.Flows, show Value.void.weight f = 0 from rfl, add_zero] at hflows
  exact le_trans le_self_add hflows

/-- The connection that a call takes was given by a call. -/
theorem exists_giver {call : Call} (hcall : call ∈ calls) {c : Connection}
    (hinput : call.input = .connection c) : ∃ giver ∈ calls, giver.output = .connection c := by
  have htaken : c ∈ weightIn (fun c => {c}) calls := by
    refine (Multiset.mem_bind (s := (calls : Multiset Call))).2 ⟨call, hcall, ?_⟩
    rw [hinput]
    exact Multiset.mem_singleton_self c
  obtain ⟨giver, hgiver, hc⟩ := (Multiset.mem_bind (s := (calls : Multiset Call))).1
    (Multiset.mem_of_le (heval.weightIn_le hop _) htaken)
  refine ⟨giver, hgiver, ?_⟩
  cases houtput : giver.output with
  | connection d =>
    rw [houtput] at hc
    rw [Multiset.mem_singleton.1 hc]
  | _ =>
    rw [houtput] at hc
    exact absurd hc (Multiset.notMem_zero c)

theorem attempts_perm : (recorded h).attempts.Perm (traced (deeds h)) := by
  rw [← Multiset.coe_eq_coe, heval.recorded_eq hop additive_attempts, traced,
    heval.tally_eq hop (.ofFilterMap Deed.traced?)]
  exact congrArg List.sum (List.map_congr_left fun call hcall =>
    Multiset.coe_eq_coe.2 (heval.files hop hcall).attempts)

/-- Records that go together in every call go together in the end. -/
theorem perm_of_calls {α : Type} {f g : Observations → List α}
    (hf : Additive fun o => (↑(f o) : Multiset α)) (hg : Additive fun o => (↑(g o) : Multiset α))
    (hcalls : ∀ call ∈ calls, (f (recorded call.history)).Perm (g (recorded call.history))) :
    (f (recorded h)).Perm (g (recorded h)) := by
  rw [← Multiset.coe_eq_coe, heval.recorded_eq hop hf, heval.recorded_eq hop hg]
  exact congrArg List.sum (List.map_congr_left fun call hcall =>
    Multiset.coe_eq_coe.2 (hcalls call hcall))

/-- Handshakes of TLS go on with traces that were handed out, with each of them once at most. -/
theorem tlsTraces_le : (recorded h).tlsTraces ≤ ↑(traced (deeds h)) :=
  calc (recorded h).tlsTraces
      = (calls.map fun call => (recorded call.history).tlsTraces).sum :=
        heval.recorded_eq hop additive_tlsTraces
    _ ≤ weightIn plainTraceOf calls :=
        List.sum_le_sum fun _ hcall => (heval.files hop hcall).plain_taken_le
    _ ≤ weightOut plainTraceOf calls := heval.weightIn_le hop plainTraceOf
    _ ≤ (calls.map fun call => (↑(traced (deeds call.history)) : Multiset TraceId)).sum :=
        List.sum_le_sum fun _ hcall => (heval.files hop hcall).plain_given_le
    _ = ↑(traced (deeds h)) := (heval.tally_eq hop (.ofFilterMap Deed.traced?)).symm

/-- So do requests. -/
theorem requestTraces_le : (recorded h).requestTraces ≤ ↑(traced (deeds h)) := by
  -- A handshake takes a connection and gives another one with the same trace, so it counts twice.
  refine le_of_add_le_add_right (a := (recorded h).tlsTraces) ?_
  calc (recorded h).requestTraces + (recorded h).tlsTraces
      = (calls.map fun call =>
          (recorded call.history).requestTraces + (recorded call.history).tlsTraces).sum :=
        heval.recorded_eq hop (additive_requestTraces.add additive_tlsTraces)
    _ ≤ weightIn traceOf calls :=
        List.sum_le_sum fun _ hcall => (heval.files hop hcall).taken_le
    _ ≤ weightOut traceOf calls := heval.weightIn_le hop traceOf
    _ ≤ (calls.map fun call =>
          (recorded call.history).tlsTraces + ↑(traced (deeds call.history))).sum :=
        List.sum_le_sum fun _ hcall => (heval.files hop hcall).given_le
    _ = (recorded h).tlsTraces + ↑(traced (deeds h)) := by
        rw [List.sum_map_add, ← heval.recorded_eq hop additive_tlsTraces, traced,
          heval.tally_eq hop (.ofFilterMap Deed.traced?)]
        rfl
    _ = ↑(traced (deeds h)) + (recorded h).tlsTraces := add_comm _ _

theorem unscoped {call : Call} (hcall : call ∈ calls) : call.input.Unscoped := by
  obtain ⟨_, -, hunscoped⟩ := heval.good hop Course.invariant_unscoped
  exact (hunscoped trivial).2 call hcall

section Sources

variable {call : Call} (hcall : call ∈ calls) {c : Connection} (hinput : call.input = .connection c)

include hcall hinput

/-- A connection over TCP was made once, and none over QUIC with its trace. -/
theorem connected_of_tcp (ho : (recorded h).attempts.Nodup) (hc : c.transport = .tcp) :
    ((recorded h).connected c.trace c.address.text).length = 1 ∧
      (recorded h).connectedQuic c.trace c.address.text = [] := by
  have hscope : c.address.scope = 0 := by
    have hunscoped := heval.unscoped hop hcall
    rwa [hinput] at hunscoped
  obtain ⟨giver, hgiver, houtput⟩ := heval.exists_giver hop hcall hinput
  obtain ⟨l, hdid⟩ := heval.did hop hgiver
  obtain ⟨r, hr, htrace, hfailure, hip, hport⟩ := (houtput ▸ hdid).exists_connect hc
  have hmem := (heval.mem_recorded_iff hop additive_connects).2 ⟨giver, hgiver, hr⟩
  rw [← htrace]
  refine length_connected ho hmem hfailure ?_
  rw [hip, hport, ← hscope]

/-- The connection below one over TLS was made once, and the handshake succeeded. -/
theorem connected_of_tls (ho : (recorded h).attempts.Nodup) (hc : c.transport = .tls) :
    (((recorded h).connected c.trace c.address.text).length = 1 ∧
      (recorded h).connectedQuic c.trace c.address.text = []) ∧
    ∃ r ∈ (recorded h).tlsHandshakes, r.trace = c.trace ∧ r.failure = none := by
  obtain ⟨giver, hgiver, houtput⟩ := heval.exists_giver hop hcall hinput
  obtain ⟨l, hdid⟩ := heval.did hop hgiver
  obtain ⟨⟨below, hbelow, htcp, htrace, haddress⟩, r, hr, hrecord⟩ := (houtput ▸ hdid).exists_tls hc
  have hmem := (heval.mem_recorded_iff hop additive_tlsHandshakes).2 ⟨giver, hgiver, hr⟩
  rw [← htrace, ← haddress]
  exact ⟨heval.connected_of_tcp hop hgiver hbelow ho htcp, r, hmem, htrace ▸ hrecord⟩

theorem connected_of_quic (ho : (recorded h).attempts.Nodup) (hc : c.transport = .quic) :
    ((recorded h).connectedQuic c.trace c.address.text).length = 1 ∧
      (recorded h).connected c.trace c.address.text = [] := by
  obtain ⟨giver, hgiver, houtput⟩ := heval.exists_giver hop hcall hinput
  obtain ⟨l, hdid⟩ := heval.did hop hgiver
  obtain ⟨r, hr, htrace, hfailure, haddress⟩ := (houtput ▸ hdid).exists_quic hc
  have hmem := (heval.mem_recorded_iff hop additive_quicHandshakes).2 ⟨giver, hgiver, hr⟩
  rw [← htrace, ← haddress]
  exact length_connectedQuic ho hmem hfailure

end Sources

/-- The records of an evaluation of a fresh session fit together. -/
theorem coherent (hgives : ({} : Session).Gives h) :
    (recorded h).Coherent (({} : Session).after h).traces calls := by
  have htraced : traced (deeds h)
      = (List.range' 1 (({} : Session).after h).traces).map Int.ofNat := by
    rw [Session.traces_after, show ({} : Session).traces = 0 from rfl, Nat.zero_add]
    exact Session.traced_eq hgives
  have hnodup : (traced (deeds h)).Nodup := by
    rw [htraced]
    exact List.Nodup.map (fun _ _ => Int.ofNat.inj) List.nodup_range'
  -- That attempts have different traces is what makes connections the only ones with theirs.
  have hattempts := heval.attempts_perm hop
  have ho : (recorded h).attempts.Nodup := hattempts.nodup_iff.2 hnodup
  exact {
    attempts := htraced ▸ hattempts
    asked := heval.perm_of_calls hop (additive_asked "AAAA") (additive_asked "A")
      fun _ hcall => (heval.files hop hcall).asked
    tls := fun r hr => by
      obtain ⟨call, hcall, hr⟩ := (heval.mem_recorded_iff hop additive_tlsHandshakes).1 hr
      obtain ⟨l, hdid⟩ := heval.did hop hcall
      obtain ⟨c, hinput, hc, htrace, haddress⟩ := hdid.tls_source hr
      rw [htrace, haddress]
      exact (heval.connected_of_tcp hop hcall hinput ho hc).1
    tlsOnce := Multiset.coe_nodup.1 (Multiset.nodup_of_le (heval.tlsTraces_le hop) hnodup)
    requests := fun r hr => by
      obtain ⟨call, hcall, hr⟩ := (heval.mem_recorded_iff hop additive_requests).1 hr
      obtain ⟨l, hdid⟩ := heval.did hop hcall
      obtain ⟨c, hinput, htrace, haddress⟩ := hdid.request_source hr
      rw [htrace, haddress]
      cases hc : c.transport with
      | tcp =>
        obtain ⟨hone, hnone⟩ := heval.connected_of_tcp hop hcall hinput ho hc
        rw [hone, hnone, List.length_nil]
      | tls =>
        obtain ⟨⟨hone, hnone⟩, -⟩ := heval.connected_of_tls hop hcall hinput ho hc
        rw [hone, hnone, List.length_nil]
      | quic =>
        obtain ⟨hone, hnone⟩ := heval.connected_of_quic hop hcall hinput ho hc
        rw [hone, hnone, List.length_nil]
    requestsOnce := Multiset.coe_nodup.1 (Multiset.nodup_of_le (heval.requestTraces_le hop) hnodup)
    overTls := fun r hr => by
      obtain ⟨call, hcall, hr⟩ := (heval.mem_recorded_iff hop additive_requests).1 hr
      obtain ⟨l, hdid⟩ := heval.did hop hcall
      obtain ⟨c, hinput, htrace, -⟩ := hdid.request_source hr
      refine ⟨call, hcall, c, hinput, hr, fun hc => ?_⟩
      rw [htrace]
      exact (heval.connected_of_tls hop hcall hinput ho hc).2
    events := heval.perm_of_calls hop additive_events additive_eventsOf
      fun _ hcall => .of_eq (heval.files hop hcall).events }

end Operation.Evaluates

/-- The records in the report of every evaluation fit together, with as many traces as were handed
    out. -/
theorem Report.transactions_cohere {n : Node} {op : Operation}
    (hop : (Registry.standard.compile n).result = .ok op) (s : Scope) :
    (∀ (h : List Action) (v : Value), (op.evaluation s).Run h (.done v) → ({} : Session).Gives h →
      ∃ calls, op.Evaluates s v h calls ∧
        ∀ report τ, (({} : Session).after h).report v = (report, τ) →
          report.observations.Coherent τ.traces calls) ∧
    ∀ (e : Surroundings) (moments : Nat) (w w' : World) (report : Report), w.session = {} →
      e.evaluate moments s op w = some (report, w') →
        ∃ h v calls, op.Evaluates s v h calls ∧
          (({} : Session).after h).report v = (report, w'.session) ∧
          report.observations.Coherent w'.session.traces calls := by
  have hcomplete (h : List Action) (v : Value) (hrun : (op.evaluation s).Run h (.done v))
      (hgives : ({} : Session).Gives h) :
      ∃ calls, op.Evaluates s v h calls ∧
        ∀ report τ, (({} : Session).after h).report v = (report, τ) →
          report.observations.Coherent τ.traces calls := by
    obtain ⟨calls, heval⟩ := Operation.exists_evaluates hrun
    refine ⟨calls, heval, fun report τ hreport => ?_⟩
    obtain ⟨rfl, rfl⟩ : (Session.report _ v).1 = report ∧ (Session.report _ v).2 = τ :=
      ⟨congrArg Prod.fst hreport, congrArg Prod.snd hreport⟩
    rw [Session.observations_report_fresh, Session.traces_report]
    exact heval.coherent hop hgives
  refine ⟨hcomplete, fun e moments w w' report hw he => ?_⟩
  obtain ⟨h, v, hrun, hgives, hreport⟩ := Surroundings.exists_run_of_evaluate he
  rw [hw] at hgives hreport
  obtain ⟨calls, heval, hcoherent⟩ := hcomplete h v hrun hgives
  exact ⟨h, v, calls, heval, hreport, hcoherent report w'.session hreport⟩

/-- A server that hangs up after the handshake: the lookup has the first trace; the connection, the
    handshake and the request have the second one. -/
theorem Report.transactions_cohere_fetch :
    ∃ n, (Registry.standard.compile n).result = .ok Construction.fetchOperation ∧
      ∃ report w', ({} : World).session = {} ∧
        Surroundings.cutOff.evaluate 9 { context := .root 0 } Construction.fetchOperation {}
          = some (report, w') ∧
        report.observations.attempts = [1, 2] ∧
        report.observations.tlsHandshakes.map (·.trace) = [2] ∧
        report.observations.requests.map (·.trace) = [2] ∧
        ∃ calls, report.observations.Coherent w'.session.traces calls := by
  obtain ⟨n, hop⟩ := Construction.compiles_fetch
  have htraces : ((Surroundings.cutOff.evaluate 9 { context := .root 0 } Construction.fetchOperation
      {}).map fun r => (r.1.observations.attempts, r.1.observations.tlsHandshakes.map (·.trace),
        r.1.observations.requests.map (·.trace))) = some ([1, 2], [2], [2]) := by decide +kernel
  obtain ⟨⟨report, w'⟩, hreport, htraces⟩ := Option.map_eq_some_iff.1 htraces
  obtain ⟨hattempts, hrest⟩ := Prod.mk.inj htraces
  obtain ⟨htls, hrequests⟩ := Prod.mk.inj hrest
  obtain ⟨-, hall⟩ := transactions_cohere hop { context := .root 0 }
  obtain ⟨-, -, calls, -, -, hcoherent⟩ := hall _ _ {} w' report rfl hreport
  exact ⟨n, hop, report, w', rfl, hreport, hattempts, htls, hrequests, calls, hcoherent⟩

end NetProbe
