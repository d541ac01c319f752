import NetProbe.Proofs.Operation.Terms
import NetProbe.Proofs.Report.Evaluation
import NetProbe.Proofs.Run.Contexts
set_option autoImplicit false

/-! # Deadlines

A leaf makes its attempts in a context that it limits to its own time, from a moment at which it
looks at the clock (`Scope.Limits`): these are terms to which every compiled program keeps. So the
deadline of an attempt is never later than that of the context of the evaluation, and never later
than the time of the leaf after the start of the attempt (`Due`).

The limit of the configuration for whole evaluations counts only where the context has no deadline
of its own. `evaluation_limit_passed` shows an attempt that may go on for longer than the whole
evaluation may take, in a context whose own deadline is later still. -/

namespace NetProbe

/-! ## Attempts of leaves -/

namespace Leaf

/-- The seconds that a leaf may take for its attempts. -/
def timeout (t : Timeouts) : Leaf → UInt64
  | lookupSystem | lookupUdp _ => t.dnsLookup
  | tcpConnect => t.tcpConnect
  | tlsHandshake _ => t.tlsHandshake
  | quicHandshake _ => t.quicHandshake
  | httpTransaction _ => t.httpTransaction
  | domainName _ | makeEndpoints _ | lookupStatic _ => 0

/-- Which attempts a leaf makes. Handshakes over datagrams and requests that cannot be started wait
    for nothing instead. -/
inductive Makes : Leaf → Attempt → Prop
  | lookup (domain : String) : Makes lookupSystem (.lookup domain)
  | ask (r : Resolver) (address : SocketAddress) (query : List UInt8) :
    Makes (lookupUdp r) (.ask address query)
  | connect (address : SocketAddress) : Makes tcpConnect (.connect address)
  | secure (o : HandshakeOptions) (stream : Stream) (offer : Tls.Offer) :
    Makes (tlsHandshake o) (.secure stream offer)
  | quic (o : HandshakeOptions) (address : SocketAddress) (offer : Tls.Offer) :
    Makes (quicHandshake o) (.quic address offer)
  | quicFault (o : HandshakeOptions) : Makes (quicHandshake o) (.pause 0)
  | fetch (a : HttpArguments) (stream : Stream) (head : List UInt8) :
    Makes (httpTransaction a) (.fetch stream head)
  | fetchFrames (a : HttpArguments) (stream : Stream) (fields : Http.Fields) :
    Makes (httpTransaction a) (.fetchFrames stream fields)
  | requestFault (a : HttpArguments) : Makes (httpTransaction a) (.pause 0)

end Leaf

/-! ## Terms of leaves -/

/-- Whether a context is that of the scope, limited by a leaf for an attempt that it makes now or
    later. -/
def Scope.Limits (s : Scope) (time : Time) (c : Context) (a : Attempt) : Prop :=
  ∃ l : Leaf, l.Makes a ∧ ∃ now ≤ time,
    c = s.context.limit now (milliseconds (l.timeout s.config.timeouts))

theorem Scope.Limits.later {s : Scope} {time time' : Time} {c : Context} {a : Attempt}
    (h : s.Limits time c a) (hle : time ≤ time') : s.Limits time' c a := by
  obtain ⟨l, hl, now, hnow, hlimit⟩ := h
  exact ⟨l, hl, now, Nat.le_trans hnow hle, hlimit⟩

/-- Whether every attempt in an effect is made in a context of this kind. -/
def Effect.Attempts (P : Context → Attempt → Prop) : Effect → Prop
  | .attempt c a => P c a
  | .attemptBoth c a b => P c a ∧ P c b
  | _ => True

/-- Whether looking at the clock tells the moment. -/
def Action.Told (time : Time) : Action → Prop
  | ⟨.now, now⟩ => now = time
  | _ => True

/-- Leaves limit the contexts of their attempts, if the clock is right. -/
def Scope.limiting (s : Scope) : Terms where
  rely := Action.Told
  guarantee time := Effect.Attempts (s.Limits time)

namespace Scope

variable {s : Scope} {t : Time} {α β : Type} {Q : Time → β → Prop}

/-- A call of the session makes no attempt. -/
theorem limiting_call {c : SessionCall} {f : c.Answer → Script β}
    (h : ∀ t', t ≤ t' → ∀ a, (f a).Honours s.limiting Q t') :
    (Script.call c >>= f).Honours s.limiting Q t :=
  fun t' ht => ⟨trivial, fun a _ => h t' ht a⟩

theorem limiting_randomWord {f : UInt16 → Script β}
    (h : ∀ t', t ≤ t' → ∀ a, (f a).Honours s.limiting Q t') :
    (Script.randomWord >>= f).Honours s.limiting Q t :=
  fun t' ht => ⟨trivial, fun a _ => h t' ht a⟩

/-- A leaf looks at the clock and limits the context of the scope. -/
theorem limiting_limit {seconds : UInt64} {f : Context → Script β}
    (h : ∀ now, t ≤ now →
      (f (s.context.limit now (milliseconds seconds))).Honours s.limiting Q now) :
    (Script.limit s.context seconds >>= f).Honours s.limiting Q t := by
  rintro now ht
  refine ⟨trivial, ?_⟩
  rintro _ rfl
  exact h _ ht

theorem limiting_attempt {c : Context} {a : Attempt}
    {f : Except Interruption a.Answer → Script β} (hc : s.Limits t c a)
    (h : ∀ t', t ≤ t' → ∀ answer, (f answer).Honours s.limiting Q t') :
    (Script.attempt c a >>= f).Honours s.limiting Q t :=
  fun t' ht => ⟨hc.later ht, fun answer _ => h t' ht answer⟩

theorem limiting_attemptBoth {c : Context} {a b : Attempt}
    {f : Except Interruption a.Answer × Except Interruption b.Answer → Script β}
    (ha : s.Limits t c a) (hb : s.Limits t c b)
    (h : ∀ t', t ≤ t' → ∀ answers, (f answers).Honours s.limiting Q t') :
    (Script.attemptBoth c a b >>= f).Honours s.limiting Q t :=
  fun t' ht => ⟨⟨ha.later ht, hb.later ht⟩, fun answers _ => h t' ht answers⟩

end Scope

section Leaves

open Scope

variable (s : Scope) (t : Time)

theorem SystemLookup.honours_call (domain : String) :
    (call s domain).Honours s.limiting (fun _ _ => True) t := by
  refine limiting_call fun _ _ trace => limiting_call fun _ _ _ => limiting_limit fun now _ => ?_
  dsimp only
  split
  · exact limiting_call fun _ _ _ => limiting_call fun _ _ _ => trivial
  · refine limiting_attempt ⟨.lookupSystem, .lookup _, now, Nat.le_refl _, rfl⟩ fun _ _ answer => ?_
    refine limiting_call fun _ _ _ => limiting_call fun _ _ _ => ?_
    cases result answer <;> exact trivial

theorem UdpLookup.honours_query (resolver : Resolver) (domain : String)
    {Q : Time → Found × Found → Prop} (hQ : ∀ t', t ≤ t' → ∀ found, Q t' found) :
    (query (s.context.limit t (milliseconds s.config.timeouts.dnsLookup)) resolver domain).Honours
      s.limiting Q t := by
  refine limiting_randomWord fun t₁ h₁ _ => limiting_randomWord fun t₂ h₂ _ => ?_
  have h := Nat.le_trans h₁ h₂
  dsimp only
  split
  · exact hQ _ h _
  · exact hQ _ h _
  · exact hQ _ h _
  · have hask {address : SocketAddress} {sent : List UInt8} :
        s.Limits t₂ (s.context.limit t (milliseconds s.config.timeouts.dnsLookup))
          (.ask address sent) :=
      ⟨.lookupUdp _, .ask (.at address) _ _, t, h, rfl⟩
    exact limiting_attemptBoth hask hask fun t₃ h₃ _ => hQ t₃ (Nat.le_trans h h₃) _

theorem UdpLookup.honours_call (resolver : Resolver) (domain : String) :
    (call s resolver domain).Honours s.limiting (fun _ _ => True) t := by
  refine limiting_call fun _ _ trace => limiting_call fun _ _ _ => limiting_limit fun now _ => ?_
  refine Script.honours_bind.2 (honours_query s now resolver domain fun _ _ found => ?_)
  refine limiting_call fun _ _ _ => limiting_call fun _ _ _ => ?_
  cases merge found.1 found.2 <;> exact trivial

theorem StaticLookup.honours_call (ips : List Ip) (domain : String) :
    (call ips domain).Honours s.limiting (fun _ _ => True) t := by
  refine limiting_call fun _ _ trace => limiting_call fun _ _ _ => ?_
  exact limiting_call fun _ _ _ => limiting_call fun _ _ _ => trivial

theorem TcpConnect.honours_call (e : Endpoint) :
    (call s e).Honours s.limiting (fun _ _ => True) t := by
  refine limiting_call fun _ _ trace => limiting_call fun _ _ _ => limiting_limit fun now _ => ?_
  refine limiting_attempt ⟨.tcpConnect, .connect _, now, Nat.le_refl _, rfl⟩ fun _ _ answer => ?_
  refine limiting_call fun _ _ _ => limiting_call fun _ _ _ => ?_
  cases unlessInterrupted unlessBroken answer with
  | error failure => exact trivial
  | ok _ => exact limiting_call fun _ _ stream => limiting_call fun _ _ slot => trivial

theorem TlsHandshake.honours_run (options : HandshakeOptions) (offer : Tls.Offer) (c : Connection)
    (stream : Stream) :
    (run s options offer c stream).Honours s.limiting (fun _ _ => True) t := by
  refine limiting_call fun _ _ _ => limiting_limit fun now _ => ?_
  refine limiting_attempt ⟨.tlsHandshake options, .secure _ _ _, now, Nat.le_refl _, rfl⟩
    fun _ _ answer => ?_
  refine limiting_call fun _ _ _ => limiting_call fun _ _ _ => ?_
  cases unlessInterrupted unlessBroken answer with
  | error failure => exact trivial
  | ok peer => exact limiting_call fun _ _ slot => trivial

theorem TlsHandshake.honours_call (options : HandshakeOptions) (c : Connection) :
    (call s options c).Honours s.limiting (fun _ _ => True) t := by
  rw [call]
  cases Tls.offerOf options protocols c.domain with
  | error fault => exact trivial
  | ok offer =>
    dsimp only
    split
    · exact trivial
    · refine limiting_call fun t' _ stream => ?_
      cases stream with
      | none => exact trivial
      | some stream => exact honours_run s t' options offer c stream

theorem QuicHandshake.honours_shake (options : HandshakeOptions) (address : SocketAddress)
    (offer : Tls.Offer) {Q : Time → Except String Tls.Peer → Prop}
    (hQ : ∀ t', t ≤ t' → ∀ result, Q t' result) :
    (shake (s.context.limit t (milliseconds s.config.timeouts.quicHandshake)) address
      offer).Honours s.limiting Q t := by
  rw [shake]
  split
  · exact limiting_attempt ⟨.quicHandshake options, .quicFault _, t, Nat.le_refl t, rfl⟩
      fun t' ht _ => hQ t' ht _
  · exact limiting_attempt ⟨.quicHandshake options, .quic _ _ _, t, Nat.le_refl t, rfl⟩
      fun t' ht _ => hQ t' ht _

theorem QuicHandshake.honours_call (options : HandshakeOptions) (e : Endpoint) :
    (call s options e).Honours s.limiting (fun _ _ => True) t := by
  rw [call]
  cases Tls.offerOf options protocols e.domain with
  | error fault => exact trivial
  | ok offer =>
    refine limiting_call fun _ _ trace => limiting_call fun _ _ _ => limiting_limit fun now _ => ?_
    refine Script.honours_bind.2 (honours_shake s now options e.address offer fun _ _ result => ?_)
    refine limiting_call fun _ _ _ => limiting_call fun _ _ _ => ?_
    cases result with
    | error failure => exact trivial
    | ok peer => exact limiting_call fun _ _ stream => limiting_call fun _ _ slot => trivial

/-! ### Requests -/

namespace HttpTransaction

variable (a : HttpArguments) {Q : Time → Option (Except String Http.ResponseParts) → Prop}
  (hQ : ∀ t', t ≤ t' → ∀ result, Q t' result)

include a hQ

theorem honours_exchange (slot : SlotId) (r : Http.Request) (limit : UInt64) :
    (exchange (s.context.limit t (milliseconds s.config.timeouts.httpTransaction)) slot r
      limit).Honours s.limiting Q t := by
  refine limiting_call fun t₁ h₁ stream => ?_
  cases stream with
  | none => exact hQ t₁ h₁ _
  | some stream =>
    refine limiting_attempt ⟨.httpTransaction a, .fetch _ _ _, t, h₁, rfl⟩ fun t₂ h₂ _ => ?_
    exact limiting_call fun t₃ h₃ _ => hQ t₃ (Nat.le_trans h₁ (Nat.le_trans h₂ h₃)) _

theorem honours_exchangeFrames (slot : SlotId) (r : Http.Request) (limit : UInt64) :
    (exchangeFrames (s.context.limit t (milliseconds s.config.timeouts.httpTransaction)) slot r
      limit).Honours s.limiting Q t := by
  refine limiting_call fun t₁ h₁ stream => ?_
  cases stream with
  | none => exact hQ t₁ h₁ _
  | some stream =>
    refine limiting_call fun t₂ h₂ _ => ?_
    have h := Nat.le_trans h₁ h₂
    dsimp only
    split
    · exact limiting_attempt ⟨.httpTransaction a, .requestFault _, t, h, rfl⟩
        fun t₃ h₃ _ => hQ t₃ (Nat.le_trans h h₃) _
    · exact limiting_attempt ⟨.httpTransaction a, .fetchFrames _ _ _, t, h, rfl⟩
        fun t₃ h₃ _ => hQ t₃ (Nat.le_trans h h₃) _

theorem honours_run (c : Connection) (r : Http.Request) (limit : UInt64) :
    (run (s.context.limit t (milliseconds s.config.timeouts.httpTransaction)) c r limit).Honours
      s.limiting Q t := by
  rw [run]
  split
  · exact honours_exchange s t a hQ c.slot r limit
  · split
    · exact hQ t (Nat.le_refl t) _
    · exact honours_exchange s t a hQ c.slot r limit
  · exact honours_exchangeFrames s t a hQ c.slot r limit

end HttpTransaction

theorem HttpTransaction.honours_call (a : HttpArguments) (c : Connection) :
    (call s a c).Honours s.limiting (fun _ _ => True) t := by
  rw [call]
  split
  · exact trivial
  · refine limiting_call fun _ _ _ => limiting_limit fun now _ => ?_
    refine Script.honours_bind.2 (honours_run s now a (fun _ _ result => ?_) c _ _)
    cases result with
    | none => exact trivial
    | some result =>
      refine limiting_call fun _ _ _ => limiting_call fun _ _ _ => ?_
      cases result <;> exact trivial

end Leaves

/-- Leaves keep to these terms on all values. -/
theorem Scope.cover_limiting (s : Scope) : s.limiting.Cover s fun _ => True where
  plain _ _ := trivial
  part _ _ _ _ := trivial
  leaf l t v _ := by
    cases l with
    | domainName _ | makeEndpoints _ =>
      exact honours_typed (fun _ _ => trivial) trivial fun _ _ => .done trivial
    | lookupSystem =>
      exact Leaf.honours_measure (fun _ _ => trivial) trivial fun domain _ =>
        SystemLookup.honours_call s t domain
    | lookupUdp resolver =>
      exact Leaf.honours_measure (fun _ _ => trivial) trivial fun domain _ =>
        UdpLookup.honours_call s t resolver domain
    | lookupStatic ips =>
      exact Leaf.honours_measure (fun _ _ => trivial) trivial fun domain _ =>
        StaticLookup.honours_call s t ips domain
    | tcpConnect =>
      exact Leaf.honours_measure (fun _ _ => trivial) trivial fun e _ =>
        TcpConnect.honours_call s t e
    | tlsHandshake options =>
      exact Leaf.honours_measure (fun _ _ => trivial) trivial fun c _ =>
        TlsHandshake.honours_call s t options c
    | quicHandshake options =>
      exact Leaf.honours_measure (fun _ _ => trivial) trivial fun e _ =>
        QuicHandshake.honours_call s t options e
    | httpTransaction a =>
      exact Leaf.honours_measure (fun _ _ => trivial) trivial fun c _ =>
        HttpTransaction.honours_call s t a c

/-! ## Deadlines of attempts -/

/-- Whether a deadline is early enough for an attempt that starts at a moment, in an evaluation that
    started at another one. -/
structure Due (s : Scope) (start time : Time) (a : Attempt) (deadline : Time) : Prop where
  context : ∀ t ∈ s.context.deadline, deadline ≤ t
  /-- The limit for whole evaluations, in a context without a deadline of its own. -/
  evaluation : s.context.deadline = none →
    ∀ seconds ∈ s.config.timeouts.evaluation?, deadline ≤ start + milliseconds seconds
  leaf : ∃ l : Leaf, l.Makes a ∧ deadline ≤ time + milliseconds (l.timeout s.config.timeouts)

/-- Whether all attempts in an effect have a deadline that is early enough. -/
def Effect.Timely (s : Scope) (start time : Time) : Effect → Prop :=
  Attempts fun c a => ∃ d, c.deadline = some d ∧ Due s start time a d

theorem Effect.Attempts.imp {P Q : Context → Attempt → Prop} (h : ∀ c a, P c a → Q c a) {e : Effect}
    (he : e.Attempts P) : e.Attempts Q := by
  cases e with
  | attempt c a => exact h c a he
  | attemptBoth c a b => exact ⟨h c a he.1, h c b he.2⟩
  | _ => trivial

theorem Scope.Limits.due {s : Scope} {start time : Time} {c : Context} {a : Attempt}
    (h : (s.startingAt start).Limits time c a) :
    ∃ d, c.deadline = some d ∧ Due s start time a d := by
  obtain ⟨l, hl, now, hnow, rfl⟩ := h
  refine ⟨_, rfl, fun t ht => ?_, fun hnone seconds hseconds => ?_, l, hl, ?_⟩
  · have hown : (s.startingAt start).context = s.context := by
      rw [startingAt, Operation.evaluationContext, Option.mem_def.1 ht]
    rw [hown]
    exact Context.earlier_le_of_mem ht
  · have hlimited :
        (s.startingAt start).context = s.context.limit start (milliseconds seconds) := by
      rw [startingAt, Operation.evaluationContext, hnone, Option.mem_def.1 hseconds]
    refine Context.earlier_le_of_mem ?_
    rw [hlimited, Context.limit, hnone]
    exact rfl
  · exact Nat.le_trans (Context.earlier_le _ _) (Nat.add_le_add_right hnow _)

/-- What surroundings answer is told by the clock. -/
theorem Surroundings.Answers.told {e : Surroundings} {o : Occurrence} (h : e.Answers o) :
    o.action.Told o.time := by
  obtain ⟨time, effect, answer⟩ := o
  obtain ⟨w, rfl, hbrings⟩ := h
  cases effect with
  | now => exact hbrings.symm
  | _ => trivial

section Evaluations

variable {n : Node} {op : Operation} {s : Scope}

/-- Leaves limit the contexts of all attempts of an evaluation, as far as it has come. -/
theorem Operation.limits_of_run (hop : (Registry.standard.compile n).result = .ok op)
    {first : Occurrence} {rest : List Occurrence} {q : Activity}
    (hrun : (op.evaluation s).Run (actions (first :: rest)) q)
    (htimes : Chronological first.time (first :: rest))
    (htold : ∀ o ∈ first :: rest, o.action.Told o.time) :
    ∀ o ∈ first :: rest, o.action.effect.Attempts ((s.startingAt first.time).Limits o.time) := by
  obtain ⟨start, action⟩ := first
  obtain ⟨now, rfl, hrest⟩ := Activity.Run.of_perform hrun
  obtain rfl : now = start := htold _ List.mem_cons_self
  have hop := Operation.honours_of_compile (s.startingAt now).cover_limiting hop
  obtain ⟨hall, -⟩ := (hop now .void trivial).run hrest htimes.2 fun o ho =>
    htold o (List.mem_cons_of_mem _ ho)
  intro o ho
  rcases List.mem_cons.1 ho with rfl | ho
  · exact trivial
  · exact hall o ho

/-- Attempts of an evaluation are timely, as far as it has come. -/
theorem Operation.timely_of_run (hop : (Registry.standard.compile n).result = .ok op)
    {first : Occurrence} {rest : List Occurrence} {q : Activity}
    (hrun : (op.evaluation s).Run (actions (first :: rest)) q)
    (htimes : Chronological first.time (first :: rest))
    (htold : ∀ o ∈ first :: rest, o.action.Told o.time) :
    ∀ o ∈ first :: rest, o.action.effect.Timely s first.time o.time := fun o ho =>
  (Operation.limits_of_run hop hrun htimes htold o ho).imp fun _ _ => Scope.Limits.due

/-- Every attempt in an evaluation of a compiled program has a deadline, which is not later than
    that of the context, and not later than the time of the leaf after the start of the attempt.
    Where the context has none, it is not later than the limit for whole evaluations, either. -/
theorem attempts_timely (hop : (Registry.standard.compile n).result = .ok op) (s : Scope) :
    (∀ (first : Occurrence) (rest : List Occurrence) (q : Activity),
      (op.evaluation s).Run (actions (first :: rest)) q →
      Chronological first.time (first :: rest) → (∀ o ∈ first :: rest, o.action.Told o.time) →
      ∀ o ∈ first :: rest, o.action.effect.Timely s first.time o.time) ∧
    ∀ (e : Surroundings) (moments : Nat) (w w' : World) (report : Report),
      e.evaluate moments s op w = some (report, w') →
      ∃ h v u, (op.evaluation s).Run (actions h) (.done v) ∧ e.Tells w h u ∧
        u.session.report v = (report, w'.session) ∧
        ∀ o ∈ h, o.action.effect.Timely s w.now o.time := by
  refine ⟨fun first rest q => Operation.timely_of_run hop, fun e moments w w' report h => ?_⟩
  obtain ⟨rest, v, u, hrun, htells, hreport⟩ := e.exists_history_of_evaluate h
  obtain ⟨htimes, hanswers⟩ := htells.chronicle
  exact ⟨_, v, u, hrun, htells, hreport,
    Operation.timely_of_run hop hrun htimes fun o ho => (hanswers o ho).told⟩

end Evaluations

/-! ### A lookup that takes its time -/

namespace SlowLookup

def node : Node :=
  .new "compose" [
    { func := "domain_name", arguments := .object [("domain", .string "example.com")] },
    .new "dns_lookup_getaddrinfo" []]

def operation : Operation :=
  .compose [.leaf (.domainName "example.com"), .leaf .lookupSystem]

/-- A scope in which evaluations are limited to a second. -/
def scope (deadline : Option Time) : Scope where
  context := { lineage := [0], deadline }
  config := { timeouts := { evaluation := 1 } }

/-- A network on which every name is unknown, after two seconds. -/
def network : Surroundings where
  network _
    | .lookup _ => some (2000, .ok [])
    | _ => none

/-- An evaluation until the lookup is answered. -/
def history (c : Context) (answer : Except Interruption (Except IoError (List Ip))) :
    List Occurrence := [
  ⟨0, .now, (0 : Time)⟩,
  ⟨0, .session .newTrace, (1 : TraceId)⟩,
  ⟨0, .session (.log (.started 1 ("DNSLookup[getaddrinfo] " ++ "example.com"))), ()⟩,
  ⟨0, .now, (0 : Time)⟩,
  ⟨0, .attempt c (.lookup "example.com"), answer⟩]

section

variable (c : Context) (answer : Except Interruption (Except IoError (List Ip)))

theorem attempt_mem_history :
    ⟨0, .attempt c (.lookup "example.com"), answer⟩ ∈ history c answer := by
  simp [history]

theorem chronological_history : Chronological 0 (history c answer) := by
  have h : (0 : Time) ≤ 0 := Nat.le_refl 0
  exact ⟨h, h, h, h, h, trivial⟩

theorem told_history : ∀ o ∈ history c answer, o.action.Told o.time := by
  simp only [history, List.forall_mem_cons]
  exact ⟨rfl, trivial, trivial, rfl, trivial, by simp⟩

end

/-- The context of the lookup. -/
def context (s : Scope) : Context :=
  (Operation.evaluationContext s 0).limit 0 (milliseconds s.config.timeouts.dnsLookup)

theorem deadline_context : (context (scope none)).deadline = some 1000 := by decide

theorem late_deadline_context : (context (scope (some 100000))).deadline = some 4000 := by decide

theorem exists_run (s : Scope) (answer : Except Interruption (Except IoError (List Ip))) :
    ∃ q, (operation.evaluation s).Run (actions (history (context s) answer)) q := by
  have hdomain : "example.com".isEmpty = false := by decide +kernel
  have hperform {e : Effect} {next : e.Answer → Activity} {a : e.Answer} {h : List Action}
      (hnext : ∃ q, (next a).Run h q) :
      ∃ q, (Activity.perform e next).Run (⟨e, a⟩ :: h) q := by
    obtain ⟨q, hq⟩ := hnext
    exact ⟨q, .head (.perform _ _ a) hq⟩
  refine hperform <| hperform <| hperform <| hperform ?_
  simp only [hdomain]
  exact hperform ⟨_, .refl _⟩

end SlowLookup

open SlowLookup in
/-- In a context without a deadline, the lookup has to do with the second of the evaluation. -/
theorem attempts_timely_lookup :
    (Registry.standard.compile node).result = .ok operation ∧
      ((context (scope none)).deadline = some 1000 ∧
        Due (scope none) 0 0 (.lookup "example.com") 1000) ∧
      ∃ report w' h v u, network.evaluate 2 (scope none) operation {} = some (report, w') ∧
        w'.now = 1000 ∧ (operation.evaluation (scope none)).Run (actions h) (.done v) ∧
        network.Tells {} h u ∧ ∀ o ∈ h, o.action.effect.Timely (scope none) 0 o.time := by
  have hop : (Registry.standard.compile node).result = .ok operation := rfl
  obtain ⟨hruns, hevaluations⟩ := attempts_timely hop (scope none)
  refine ⟨hop, ⟨deadline_context, ?_⟩, ?_⟩
  · obtain ⟨q, hrun⟩ := exists_run (scope none) (.error .deadlineExceeded)
    obtain ⟨d, hd, hdue⟩ := hruns _ _ q hrun (chronological_history _ _) (told_history _ _) _
      (attempt_mem_history _ _)
    obtain rfl := Option.some.inj (deadline_context.symm.trans hd)
    exact hdue
  · have hnow : ((network.evaluate 2 (scope none) operation {}).map fun r => r.2.now)
        = some 1000 := by decide +kernel
    obtain ⟨⟨report, w'⟩, hreport, hnow⟩ := Option.map_eq_some_iff.1 hnow
    obtain ⟨h, v, u, hrun, htells, -, htimely⟩ := hevaluations _ _ {} w' report hreport
    exact ⟨report, w', h, v, u, hreport, hnow, hrun, htells, htimely⟩

open SlowLookup in
/-- In a context with a late deadline, attempts may go on when the evaluation should be over. -/
theorem evaluation_limit_passed :
    ¬ ∀ (n : Node) (op : Operation) (s : Scope) (e : Surroundings) (w u : World)
      (h : List Occurrence) (q : Activity), (Registry.standard.compile n).result = .ok op →
      (op.evaluation s).Run (actions h) q → e.Tells w h u →
      ∀ o ∈ h, o.action.effect.Attempts fun c _ => ∀ d ∈ c.deadline,
        ∀ seconds ∈ s.config.timeouts.evaluation?, d ≤ w.now + milliseconds seconds := by
  intro hall
  obtain ⟨q, hrun⟩ := exists_run (scope (some 100000)) (.ok (.ok []))
  have htells : network.Tells {} (history (context (scope (some 100000))) (.ok (.ok []))) _ :=
    .perform rfl <| .perform rfl <| .perform rfl <| .perform rfl <| .perform rfl <| .nil _
  have hlate := hall node operation _ _ _ _ _ q rfl hrun htells _ (attempt_mem_history _ _) 4000
    late_deadline_context 1 rfl
  exact absurd hlate (by decide)

end NetProbe
