import NetProbe.Proofs.Dns.Query
import NetProbe.Proofs.Operation.Terms
import NetProbe.Proofs.Program.Construction
import NetProbe.Proofs.Report.Evaluation
import NetProbe.Proofs.Run.Contexts
set_option autoImplicit false

/-! # Contexts that are called off

In a context that was called off, attempts are interrupted before they start. The contexts that
leaves and evaluations make have the lineage of the one that they are made from, so they are called
off with it. Hence no program gets a connection there: its lookups, its connections and its
handshakes over datagrams are all recorded as interrupted, but for lookups that find something
wrong without asking anyone, and for those of addresses that the program brings along, which go on
as ever (`Observations.CalledOff`). And since nothing is waited for, there is a report at once
(`evaluation_calledOff`). -/

namespace NetProbe

/-! ## Records -/

/-- What a lookup records in a context that was called off. -/
inductive LookupRecord.CalledOff : LookupRecord → Prop
  | system (trace : TraceId) {domain : String} : domain ≠ "" →
    CalledOff (SystemLookup.record trace domain (.error FailureName.interrupted))
  | emptyDomain (trace : TraceId) :
    CalledOff (SystemLookup.record trace "" (.error (FailureName.unknown "empty domain")))
  | udp (trace : TraceId) (address : SocketAddress) {domain : String} (type : Dns.RecordType) :
    Dns.IsName (Domain.withoutDot domain.toList) →
    CalledOff (UdpLookup.record trace (.at address) domain type (.error FailureName.interrupted))
  | invalidName (trace : TraceId) (address : SocketAddress) {domain : String}
    (type : Dns.RecordType) : ¬ Dns.IsName (Domain.withoutDot domain.toList) →
    CalledOff (UdpLookup.record trace (.at address) domain type
      (.error (Dns.MessageError.invalidName domain).message))
  | unusable (trace : TraceId) (text domain : String) (type : Dns.RecordType) :
    CalledOff (UdpLookup.record trace (.unusable text) domain type
      (.error (FailureName.unknown ("invalid endpoint " ++ Text.quote text))))
  /-- As in any other context. -/
  | static (trace : TraceId) (domain : String) (ips : List Ip) :
    CalledOff (StaticLookup.record trace domain (distinct ips))

namespace Observations

/-- What is observed in a context that was called off. -/
structure CalledOff (o : Observations) : Prop where
  events : o.events = []
  requests : o.requests = []
  tlsHandshakes : o.tlsHandshakes = []
  connects : ∀ r ∈ o.connects, r.failure = some FailureName.interrupted
  quicHandshakes : ∀ r ∈ o.quicHandshakes, r.failure = some FailureName.interrupted
  lookups : ∀ r ∈ o.lookups, r.CalledOff

namespace CalledOff

theorem empty : CalledOff {} := by constructor <;> simp

theorem append {a b : Observations} (ha : a.CalledOff) (hb : b.CalledOff) :
    (a.append b).CalledOff where
  events := by rw [Observations.append, ha.events, hb.events]; rfl
  requests := by rw [Observations.append, ha.requests, hb.requests]; rfl
  tlsHandshakes := by rw [Observations.append, ha.tlsHandshakes, hb.tlsHandshakes]; rfl
  connects r hr := (List.mem_append.1 hr).elim (ha.connects r) (hb.connects r)
  quicHandshakes r hr := (List.mem_append.1 hr).elim (ha.quicHandshakes r) (hb.quicHandshakes r)
  lookups r hr := (List.mem_append.1 hr).elim (ha.lookups r) (hb.lookups r)

theorem reduce {groups : List Observations} (h : ∀ o ∈ groups, o.CalledOff) :
    (reduce groups).CalledOff := by
  suffices hfold : ∀ o : Observations, o.CalledOff →
      (groups.foldl Observations.append o).CalledOff from hfold {} empty
  induction groups with
  | nil => exact fun o ho => ho
  | cons g groups ih =>
    exact fun o ho => ih (fun o ho => h o (List.mem_cons_of_mem g ho)) _
      (ho.append (h g List.mem_cons_self))

theorem ofLookups {rs : List LookupRecord} (h : ∀ r ∈ rs, r.CalledOff) :
    CalledOff { lookups := rs } :=
  { empty with lookups := h }

theorem ofLookup {r : LookupRecord} (hr : r.CalledOff) : CalledOff { lookups := [r] } :=
  ofLookups (List.forall_mem_singleton.2 hr)

end CalledOff

end Observations

/-! ## Effects -/

/-- Whether attempts in a context that was called off are interrupted. -/
def Action.CalledOff (cancelled : List Nat) : Action → Prop
  | ⟨.attempt c _, answer⟩ => c.isCancelled cancelled = true → answer = .error .cancelled
  | ⟨.attemptBoth c _ _, answers⟩ =>
    c.isCancelled cancelled = true → answers = (.error .cancelled, .error .cancelled)
  | _ => True

/-- Where nothing was called off, everything may happen. -/
theorem Action.calledOff_nil (a : Action) : a.CalledOff [] := by
  have hnone (c : Context) : ¬ c.isCancelled [] = true := by simp [Context.isCancelled]
  obtain ⟨effect, answer⟩ := a
  cases effect with
  | attempt c a => exact fun h => absurd h (hnone c)
  | attemptBoth c a b => exact fun h => absurd h (hnone c)
  | _ => trivial

/-- Whether an effect only attempts what is called off, and leaves nothing behind but what is
    observed then. -/
def Effect.Idle (cancelled : List Nat) : Effect → Prop
  | .session .newTrace | .session (.log _) | .now | .randomWord => True
  | .session (.save o) => o.CalledOff
  | .session _ => False
  | .attempt c _ | .attemptBoth c _ _ => c.isCancelled cancelled = true

/-- What is done in contexts that were called off. -/
def Terms.calledOff (cancelled : List Nat) : Terms where
  rely _ := Action.CalledOff cancelled
  guarantee _ := Effect.Idle cancelled

namespace Session

/-- A session in which no stream was established and nothing was tracked. -/
structure Idle (σ : Session) : Prop where
  streams : σ.streams = 0
  slots : σ.slots = []
  closers : σ.closers = []
  closings : σ.closings = []
  saved : ∀ o ∈ σ.saved, o.CalledOff

theorem idle_fresh : ({} : Session).Idle :=
  ⟨rfl, rfl, rfl, rfl, fun _ ho => absurd ho List.not_mem_nil⟩

namespace Idle

variable {σ : Session} {cancelled : List Nat}

theorem action {a : Action} (hσ : σ.Idle) (ha : a.effect.Idle cancelled) : (a.after σ).Idle := by
  obtain ⟨effect, answer⟩ := a
  cases effect with
  | session c =>
    cases c with
    | newTrace | log e => exact ⟨hσ.streams, hσ.slots, hσ.closers, hσ.closings, hσ.saved⟩
    | save o =>
      refine ⟨hσ.streams, hσ.slots, hσ.closers, hσ.closings, fun g hg => ?_⟩
      rcases List.mem_append.1 hg with hg | hg
      · exact hσ.saved g hg
      · exact List.mem_singleton.1 hg ▸ ha
    | _ => exact ha.elim
  | _ => exact hσ

theorem after {h : List Action} (hσ : σ.Idle) (hh : ∀ a ∈ h, a.effect.Idle cancelled) :
    (σ.after h).Idle := by
  induction h generalizing σ with
  | nil => exact hσ
  | cons a h ih =>
    exact ih (hσ.action (hh a List.mem_cons_self)) fun b hb => hh b (List.mem_cons_of_mem a hb)

/-- There is nothing to close at the end. -/
theorem report (hσ : σ.Idle) (v : Value) :
    (σ.report v).1.observations.CalledOff ∧ (σ.report v).2.Idle := by
  refine ⟨.reduce hσ.saved, ?_⟩
  have hclose : (σ.extract.2).close = { σ with saved := [] } := by
    simp [close, takeClosers, extract, hσ.closers]
  show ((σ.extract.2).close.write _).Idle
  rw [hclose]
  exact ⟨hσ.streams, hσ.slots, hσ.closers, hσ.closings, fun _ ho => absurd ho List.not_mem_nil⟩

end Idle

end Session

/-! ## Contexts -/

theorem Scope.isCancelled_startingAt (s : Scope) (start : Time) (cancelled : List Nat) :
    (s.startingAt start).context.isCancelled cancelled = s.context.isCancelled cancelled := by
  rw [startingAt, Operation.evaluationContext]
  split <;> rfl

/-! ## Leaves -/

/-- A query for a name that cannot be asked for is not written. -/
theorem Dns.encodeQuery_eq_error {domain : String}
    (h : ¬ IsName (Domain.withoutDot domain.toList)) (id : UInt16) (type : RecordType) :
    encodeQuery id domain type = .error (.invalidName domain) := by
  cases hquery : encodeQuery id domain type with
  | ok msg => exact absurd (encodeQuery_eq_ok_iff.1 hquery).1 h
  | error e =>
    rw [encodeQuery] at hquery
    split at hquery
    · exact hquery.symm
    · split at hquery
      · cases hquery
      · exact hquery.symm

section Rules

variable {cancelled : List Nat} {t : Time} {β : Type} {Q : Time → β → Prop}

theorem calledOff_call {c : SessionCall} {f : c.Answer → Script β}
    (hc : (Effect.session c).Idle cancelled)
    (h : ∀ t' a, (f a).Honours (.calledOff cancelled) Q t') :
    (Script.call c >>= f).Honours (.calledOff cancelled) Q t :=
  fun t' _ => ⟨hc, fun a _ => h t' a⟩

theorem calledOff_randomWord {f : UInt16 → Script β}
    (h : ∀ t' a, (f a).Honours (.calledOff cancelled) Q t') :
    (Script.randomWord >>= f).Honours (.calledOff cancelled) Q t :=
  fun t' _ => ⟨trivial, fun a _ => h t' a⟩

/-- The context of a leaf is called off with that of the scope. -/
theorem calledOff_limit {c : Context} {seconds : UInt64} {f : Context → Script β}
    (hc : c.isCancelled cancelled = true)
    (h : ∀ t' child, child.isCancelled cancelled = true →
      (f child).Honours (.calledOff cancelled) Q t') :
    (Script.limit c seconds >>= f).Honours (.calledOff cancelled) Q t :=
  fun t' _ => ⟨trivial, fun now _ => h t' _ ((c.isCancelled_limit now _ _).trans hc)⟩

/-- An attempt is interrupted. -/
theorem calledOff_attempt {c : Context} {a : Attempt}
    {f : Except Interruption a.Answer → Script β} (hc : c.isCancelled cancelled = true)
    (h : ∀ t', (f (.error .cancelled)).Honours (.calledOff cancelled) Q t') :
    (Script.attempt c a >>= f).Honours (.calledOff cancelled) Q t := by
  refine fun t' _ => ⟨hc, fun answer hanswer => ?_⟩
  obtain rfl := hanswer hc
  exact h t'

theorem calledOff_attemptBoth {c : Context} {a b : Attempt}
    {f : Except Interruption a.Answer × Except Interruption b.Answer → Script β}
    (hc : c.isCancelled cancelled = true)
    (h : ∀ t', (f (.error .cancelled, .error .cancelled)).Honours (.calledOff cancelled) Q t') :
    (Script.attemptBoth c a b >>= f).Honours (.calledOff cancelled) Q t := by
  refine fun t' _ => ⟨hc, fun answers hanswers => ?_⟩
  obtain rfl := hanswers hc
  exact h t'

end Rules

/-- Whether a value is no connection. -/
def Value.Apart (v : Value) : Prop := v.connection? = none

section Leaves

variable {s : Scope} {cancelled : List Nat} (hs : s.context.isCancelled cancelled = true)
  {t : Time} (name : String)

/-- A lookup that asks nobody goes on as ever. -/
theorem StaticLookup.idle_call (ips : List Ip) (domain : String)
    {Q : Time → Outcome Resolved → Prop}
    (hQ : ∀ t', Q t' (.output { domain, addresses := distinct ips })) :
    (call ips domain).Honours (.calledOff cancelled) Q t := by
  refine calledOff_call trivial fun _ trace => calledOff_call trivial fun _ _ => ?_
  exact calledOff_call (.ofLookup (.static trace domain ips)) fun _ _ =>
    calledOff_call trivial fun t' _ => hQ t'

/-- Both queries fail in the same way. -/
theorem UdpLookup.idle_query {c : Context} (hc : c.isCancelled cancelled = true)
    (resolver : Resolver) (domain : String) {Q : Time → Found × Found → Prop}
    (hQ : ∀ t' failure,
      (∀ trace type, (record trace resolver domain type (.error failure)).CalledOff) →
      Q t' (.error failure, .error failure)) :
    (query c resolver domain).Honours (.calledOff cancelled) Q t := by
  refine calledOff_randomWord fun _ x => calledOff_randomWord fun _ y => ?_
  cases resolver with
  | unusable text => exact hQ _ _ fun trace type => .unusable trace text domain type
  | «at» address =>
    by_cases hname : Dns.IsName (Domain.withoutDot domain.toList)
    · rw [Dns.encodeQuery_eq_ok_iff.2 ⟨hname, rfl⟩, Dns.encodeQuery_eq_ok_iff.2 ⟨hname, rfl⟩]
      exact calledOff_attemptBoth hc fun _ =>
        hQ _ _ fun trace type => .udp trace address type hname
    · rw [Dns.encodeQuery_eq_error hname, Dns.encodeQuery_eq_error hname]
      exact hQ _ _ fun trace type => .invalidName trace address type hname

/-- Whether or not the handshake could be started. -/
theorem QuicHandshake.idle_shake {c : Context} (hc : c.isCancelled cancelled = true)
    (address : SocketAddress) (offer : Tls.Offer) {Q : Time → Except String Tls.Peer → Prop}
    (hQ : ∀ t', Q t' (.error FailureName.interrupted)) :
    (shake c address offer).Honours (.calledOff cancelled) Q t := by
  rw [shake]
  split
  · exact calledOff_attempt hc hQ
  · exact calledOff_attempt hc hQ

include hs

theorem SystemLookup.idle_call (domain : String) :
    (call s domain).Honours (.calledOff cancelled) (fun _ o => (o.value name .resolved).Apart)
      t := by
  refine calledOff_call trivial fun _ trace => calledOff_call trivial fun _ _ => ?_
  refine calledOff_limit hs fun _ child hchild => ?_
  dsimp only
  split
  · next hempty =>
    obtain rfl := String.isEmpty_iff.1 hempty
    exact calledOff_call (.ofLookup (.emptyDomain trace)) fun _ _ =>
      calledOff_call trivial fun _ _ => rfl
  · next hempty =>
    have hdomain : domain ≠ "" := fun h => hempty (String.isEmpty_iff.2 h)
    exact calledOff_attempt hchild fun _ =>
      calledOff_call (.ofLookup (.system trace hdomain)) fun _ _ =>
        calledOff_call trivial fun _ _ => rfl

theorem UdpLookup.idle_call (resolver : Resolver) (domain : String) :
    (call s resolver domain).Honours (.calledOff cancelled)
      (fun _ o => (o.value name .resolved).Apart) t := by
  refine calledOff_call trivial fun _ trace => calledOff_call trivial fun _ _ => ?_
  refine calledOff_limit hs fun _ child hchild => ?_
  refine Script.honours_bind.2 (idle_query hchild resolver domain fun _ failure hrecord => ?_)
  have hrecords := List.forall_mem_cons.2
    ⟨hrecord trace Dns.typeA, List.forall_mem_singleton.2 (hrecord trace Dns.typeAAAA)⟩
  exact calledOff_call (.ofLookups hrecords) fun _ _ => calledOff_call trivial fun _ _ => rfl

theorem TcpConnect.idle_call (e : Endpoint) :
    (call s e).Honours (.calledOff cancelled) (fun _ o => (o.value name .connection).Apart) t := by
  refine calledOff_call trivial fun _ trace => calledOff_call trivial fun _ _ => ?_
  refine calledOff_limit hs fun _ child hchild => calledOff_attempt hchild fun _ => ?_
  refine calledOff_call ?_ fun _ _ => calledOff_call trivial fun _ _ => rfl
  constructor <;> simp [record, failureOf, unlessInterrupted, Interruption.failure]

theorem QuicHandshake.idle_call (options : HandshakeOptions) (e : Endpoint) :
    (call s options e).Honours (.calledOff cancelled)
      (fun _ o => (o.value name .connection).Apart) t := by
  rw [call]
  cases Tls.offerOf options protocols e.domain with
  | error fault => exact rfl
  | ok offer =>
    refine calledOff_call trivial fun _ trace => calledOff_call trivial fun _ _ => ?_
    refine calledOff_limit hs fun _ child hchild => ?_
    refine Script.honours_bind.2 (idle_shake hchild e.address offer fun _ => ?_)
    refine calledOff_call ?_ fun _ _ => calledOff_call trivial fun _ _ => rfl
    constructor <;> simp [handshakeRecord, failureOf]

end Leaves

/-- Leaves that use connections are never reached. -/
theorem Scope.cover_calledOff {s : Scope} {cancelled : List Nat}
    (hs : s.context.isCancelled cancelled = true) :
    (Terms.calledOff cancelled).Cover s Value.Apart where
  plain v hv := by cases hv <;> rfl
  part u v huv _ := by cases huv <;> rfl
  leaf l t v hv := by
    have hplain : ∀ v : Value, v.Plain → v.Apart := fun v hv => by cases hv <;> rfl
    cases l with
    | domainName _ | makeEndpoints _ => exact honours_typed hplain hv fun _ _ => .done rfl
    | lookupSystem =>
      exact Leaf.honours_measure hplain hv fun domain _ => SystemLookup.idle_call hs _ domain
    | lookupUdp resolver =>
      exact Leaf.honours_measure hplain hv fun domain _ => UdpLookup.idle_call hs _ resolver domain
    | lookupStatic ips =>
      exact Leaf.honours_measure hplain hv fun domain _ =>
        StaticLookup.idle_call ips domain fun _ => rfl
    | tcpConnect => exact Leaf.honours_measure hplain hv fun e _ => TcpConnect.idle_call hs _ e
    | quicHandshake options =>
      exact Leaf.honours_measure hplain hv fun e _ => QuicHandshake.idle_call hs _ options e
    | tlsHandshake options =>
      refine Leaf.honours_measure hplain hv fun c hc => ?_
      obtain ⟨rfl, -⟩ := Value.eq_of_connectionOver? hc
      cases hv
    | httpTransaction a =>
      refine Leaf.honours_measure hplain hv fun c hc => ?_
      obtain rfl := Value.eq_of_connection? hc
      cases hv

/-- A lookup of the addresses of the program gives these in every context. -/
theorem Leaf.resolved_of_run_lookupStatic {s : Scope} {ips : List Ip} {domain : String}
    {h : List Action} {v : Value}
    (hrun : ((lookupStatic ips).apply s (.lookup domain)).Run h (.done v)) :
    v = .resolved { domain, addresses := distinct ips } := by
  have hleaf : ((lookupStatic ips).apply s (.lookup domain)).Honours (.calledOff []) 0
      (· = .resolved { domain, addresses := distinct ips }) :=
    Script.Honours.activity (Script.honours_bind.2 (StaticLookup.idle_call ips domain fun _ => rfl))
  rw [← actions_occurringAt 0 h] at hrun
  obtain ⟨-, t, -, hdone⟩ := hleaf.run hrun (chronological_occurringAt 0 h)
    fun o _ => o.action.calledOff_nil
  cases hdone with
  | done hv => exact hv

/-! ## Surroundings -/

namespace Surroundings

variable {e : Surroundings} {time : Time} {w : World}

theorem Answers.calledOff {o : Occurrence} (h : e.Answers o) (ho : time ≤ o.time) :
    o.action.CalledOff (e.cancelledBy time) := by
  obtain ⟨moment, effect, answer⟩ := o
  obtain ⟨w, rfl, hbrings⟩ := h
  cases effect with
  | attempt c a =>
    intro hc
    rw [perform_attempt hc ho] at hbrings
    exact hbrings.symm
  | attemptBoth c a b =>
    intro hc
    rw [perform_attemptBoth hc ho] at hbrings
    exact hbrings.symm
  | _ => trivial

/-- Everything is answered at once that is done in contexts that were called off. -/
theorem perform_of_idle {effect : Effect} (he : effect.Idle (e.cancelledBy time))
    (hw : time ≤ w.now) :
    ∃ a, (e.perform effect w).1 = .now a ∧ Action.CalledOff (e.cancelledBy time) ⟨effect, a⟩ := by
  cases effect with
  | attempt c a => exact ⟨_, perform_attempt he hw a, fun _ => rfl⟩
  | attemptBoth c a b => exact ⟨_, perform_attemptBoth he hw a b, fun _ => rfl⟩
  | _ => exact ⟨_, rfl, trivial⟩

end Surroundings

/-! ## Evaluations -/

section Evaluations

variable {n : Node} {op : Operation} {s : Scope} {cancelled : List Nat}

theorem Operation.honours_calledOff (hop : (Registry.standard.compile n).result = .ok op)
    (hs : s.context.isCancelled cancelled = true) (t : Time) :
    (op.evaluation s).Honours (.calledOff cancelled) t Value.Apart := by
  refine .perform (fun _ _ => trivial) fun t' _ now _ => ?_
  have hnow := (s.isCancelled_startingAt now cancelled).trans hs
  exact Operation.honours_of_compile (Scope.cover_calledOff hnow) hop t' .void rfl

theorem Operation.idle_of_run (hop : (Registry.standard.compile n).result = .ok op)
    (hs : s.context.isCancelled cancelled = true) {h : List Action} {q : Activity}
    (hrun : (op.evaluation s).Run h q) (hh : ∀ a ∈ h, a.CalledOff cancelled) :
    ∀ a ∈ h, a.effect.Idle cancelled := by
  -- The terms do not depend on moments, so everything may as well happen at the same one.
  rw [← actions_occurringAt 0 h] at hrun
  obtain ⟨hidle, -⟩ := (honours_calledOff hop hs 0).run hrun (chronological_occurringAt 0 h)
    (List.forall_mem_map.2 hh)
  exact fun a ha => hidle ⟨0, a⟩ (List.mem_map_of_mem ha)

/-- An evaluation in a context that was called off before it started only makes attempts that are
    called off, establishes no stream and tracks nothing, as far as it has come. It comes to a
    report without waiting, of observations that say so. Lookups of the addresses of the program
    succeed as ever. -/
theorem evaluation_calledOff (hop : (Registry.standard.compile n).result = .ok op) (s : Scope) :
    (∀ (cancelled : List Nat) (h : List Action) (q : Activity),
      s.context.isCancelled cancelled = true → (op.evaluation s).Run h q →
      (∀ a ∈ h, a.CalledOff cancelled) →
      (∀ a ∈ h, a.effect.Idle cancelled) ∧ (({} : Session).after h).Idle) ∧
    (∀ (e : Surroundings) (w : World) (moments : Nat),
      s.context.isCancelled (e.cancelledBy w.now) = true → w.session = {} →
      ∃ report w', e.evaluate moments s op w = some (report, w') ∧ w'.now = w.now ∧
        report.observations.CalledOff ∧ w'.session.Idle) ∧
    ∀ (ips : List Ip) (domain : String) (h : List Action) (v : Value),
      ((Leaf.lookupStatic ips).apply s (.lookup domain)).Run h (.done v) →
      v = .resolved { domain, addresses := distinct ips } := by
  refine ⟨fun cancelled h q hs hrun hh => ?_, fun e w moments hs hfresh => ?_,
    fun ips domain h v => Leaf.resolved_of_run_lookupStatic⟩
  · have hidle := Operation.idle_of_run hop hs hrun hh
    exact ⟨hidle, Session.idle_fresh.after hidle⟩
  · obtain ⟨v, u, hadvance, -, hnow⟩ := (Operation.honours_calledOff hop hs w.now).finishesAtOnce
      (Nat.le_refl _) (fun _ _ hw hidle => e.perform_of_idle hidle hw) w (Nat.le_refl _)
    obtain ⟨report, w', hreport, hnow'⟩ : ∃ report w',
        e.evaluate moments s op w = some (report, w') ∧ w'.now = u.now := by
      rw [Surroundings.evaluate, Surroundings.run, hadvance]
      cases moments <;> exact ⟨_, _, rfl, rfl⟩
    refine ⟨report, w', hreport, hnow'.trans hnow, ?_⟩
    obtain ⟨rest, v', u', hrun, htells, hclosed⟩ := e.exists_history_of_evaluate hreport
    obtain ⟨htimes, hanswers⟩ := htells.chronicle
    have hidle := Operation.idle_of_run hop hs hrun (List.forall_mem_map.2 fun o ho =>
      (hanswers o ho).calledOff (htimes.le o ho))
    have hsession := Session.idle_fresh.after hidle
    rw [← hfresh, htells.gives.2] at hsession
    have hreported := hsession.report v'
    rwa [hclosed] at hreported

end Evaluations

/-! ### A page that is not fetched -/

namespace NoFetch

/-- A network on which the context with the number 0 is called off from the start. -/
def network : Surroundings where
  network := Surroundings.cutOff.network
  cancelled := [(0, 0)]

/-- A scope in which evaluations are limited, so that they get a context of their own. -/
def scope : Scope where
  context := .root 0
  config := { timeouts := { evaluation := 30 } }

end NoFetch

open NoFetch Construction in
/-- The program looks up the address that it knows and fails to connect to it. -/
theorem evaluation_calledOff_fetch :
    ∃ n, (Registry.standard.compile n).result = .ok fetchOperation ∧
      (∃ h v, (fetchOperation.evaluation scope).Run h (.done v) ∧ (∀ a ∈ h, a.CalledOff [0]) ∧
        (∀ a ∈ h, a.effect.Idle [0]) ∧ (({} : Session).after h).Idle) ∧
      (∃ report w', network.evaluate 0 scope fetchOperation {} = some (report, w') ∧
        report.observations.lookups.map (·.failure) = [none] ∧
        report.observations.connects.map (·.failure) = [some "interrupted"] ∧
        report.observations.CalledOff ∧ w'.session.Idle) ∧
      ∃ h, ((Leaf.lookupStatic [.v4 ⟨0xc0000201⟩]).apply scope (.lookup "example.com")).Run h
        (.done (.resolved ⟨"example.com", [.v4 ⟨0xc0000201⟩]⟩)) := by
  obtain ⟨n, hop⟩ := Construction.compiles_fetch
  obtain ⟨hruns, hevaluations, hlookups⟩ := evaluation_calledOff hop scope
  have hfailures : ((network.evaluate 0 scope fetchOperation {}).map fun r =>
      (r.1.observations.lookups.map (·.failure), r.1.observations.connects.map (·.failure)))
      = some ([none], [some "interrupted"]) := by decide +kernel
  obtain ⟨report, w', hreport, -, hcalledOff, hidle⟩ := hevaluations network {} 0 (by decide) rfl
  rw [hreport] at hfailures
  obtain ⟨hlookup, hconnect⟩ := Prod.mk.inj (Option.some.inj hfailures)
  refine ⟨n, hop, ?_, ⟨report, w', hreport, hlookup, hconnect, hcalledOff, hidle⟩, ?_⟩
  · obtain ⟨rest, v, u, hrun, htells, -⟩ := network.exists_history_of_evaluate hreport
    obtain ⟨htimes, hanswers⟩ := htells.chronicle
    have hh := List.forall_mem_map.2 fun o ho => (hanswers o ho).calledOff (htimes.le o ho)
    exact ⟨_, v, hrun, hh, hruns [0] _ _ (by decide) hrun hh⟩
  · obtain ⟨v, w, hw⟩ : ∃ v w, network.run 0
        ((Leaf.lookupStatic [.v4 ⟨0xc0000201⟩]).apply scope (.lookup "example.com")) {}
          = some (v, w) := ⟨_, _, rfl⟩
    obtain ⟨h, hrun, -, -⟩ := network.reaches_of_run hw
    obtain rfl := hlookups _ _ h v hrun
    exact ⟨h, hrun⟩

end NetProbe
