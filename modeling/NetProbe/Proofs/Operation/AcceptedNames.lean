import NetProbe.Proofs.Dns.Failures
import NetProbe.Proofs.Net.Domain
import NetProbe.Proofs.Program.FirstFault
import NetProbe.Proofs.Run.Moments
import NetProbe.Proofs.Run.Scripts
import NetProbe.Proofs.Run.Terms
set_option autoImplicit false

/-! # Accepted domains can be asked for

A domain that is checked when a program is built or compiled is not checked in vain. No query for it
is refused, so a lookup of it never says that the name is invalid: what it says is said by the
responses, by the operating system, or by the context that ends the waiting (`parseDomain_agrees`).
-/

namespace NetProbe

open Registry (standard)

/-! ## Accepted domains -/

/-- Whether the builder took a domain, or the domain stands in a program that compiled. -/
inductive IsAccepted (domain : String) : Prop
  | built {p : Piece} : Piece.domainName domain = .ok p → IsAccepted domain
  | compiled {program n : Node} {op : Operation} :
      (standard.compile program).result = .ok op → n ∈ program.visited →
      n.func = "domain_name" → n.decodeArguments DomainArguments.schema = .ok { domain } →
      IsAccepted domain

/-- Every node that is visited passed its check. -/
theorem check_of_compile {program n : Node} {op : Operation}
    (h : (standard.compile program).result = .ok op) (hn : n ∈ program.visited) :
    n.check = .ok () := by
  have hverdict : verdict (standard.compile program).result = .ok () :=
    verdict_eq_ok_iff.2 ⟨op, h⟩
  rw [Registry.verdict_compile, forM_eq_ok_iff] at hverdict
  exact hverdict n hn

theorem IsAccepted.parseDomain {domain : String} (h : IsAccepted domain) (hdomain : domain ≠ "") :
    parseDomain domain = .ok domain := by
  cases h with
  | built hpiece =>
    simp only [Piece.domainName, bind_eq_ok_iff, Piece.orInvalid_eq_ok_iff] at hpiece
    obtain ⟨d, hparse, -⟩ := hpiece
    obtain rfl := Piece.eq_of_parseDomain hparse
    exact hparse
  | @compiled program n op hcompile hn hfunc harguments =>
    have hcheck := check_of_compile hcompile hn
    rw [Node.check, hfunc] at hcheck
    simp only [Node.checkLeaf, harguments, bind_eq_ok_iff, verdict_eq_ok_iff] at hcheck
    obtain ⟨a, ha, -, -, d, hvalidate⟩ := hcheck
    obtain rfl := Except.ok.inj ha
    -- The template checks as the builder does, but lets the empty domain pass.
    have hparse := (Piece.validate_domain_iff hdomain).1 hvalidate
    obtain rfl := Piece.eq_of_parseDomain hparse
    exact hparse

/-! ## Lookups -/

/-- Whether a socket reports nothing but errors of the operating system. -/
def Attempt.ReportsSystem : (a : Attempt) → Except Interruption a.Answer → Prop
  | .ask _ _, .ok inbox => ∃ number, Dns.Inbox.fault inbox = .system number
  | _, _ => True

def Action.ReportsSystem : Action → Prop
  | ⟨.attempt _ a, answer⟩ => a.ReportsSystem answer
  | ⟨.attemptBoth _ a b, answers⟩ =>
    a.ReportsSystem answers.1 ∧ b.ReportsSystem answers.2
  | _ => True

/-- Whether no record that an effect saves blames a name. -/
def Effect.Nameless (e : Effect) : Prop :=
  ∀ o, e = .session (.save o) → ∀ r ∈ o.lookups, ∀ failure, r.failure = some failure →
    ¬ IsInvalidName failure

/-- Sockets report errors of the operating system, and no record blames a name. -/
def Terms.nameless : Terms where
  rely _ a := a.ReportsSystem
  guarantee _ e := e.Nameless

/-- Whether a failure, if there is one, does not blame a name. -/
def Blameless {α : Type} (result : Except String α) : Prop :=
  ∀ failure, result = .error failure → ¬ IsInvalidName failure

/-- What keeps to terms at a moment keeps to them in a run in which time stands still. -/
theorem Activity.Honours.run_at {K : Terms} {t : Time} {Q : Value → Prop} {p : Activity}
    (hp : p.Honours K t Q) {h : List Action} {v : Value} (hrun : Run p h (.done v))
    (hrely : ∀ a ∈ h, K.rely t a) : (∀ a ∈ h, K.guarantee t a.effect) ∧ Q v := by
  rw [← actions_occurringAt t h] at hrun
  have hoccurring : ∀ {P : Time → Action → Prop},
      (∀ o ∈ occurringAt t h, P o.time o.action) ↔ ∀ a ∈ h, P t a := by
    intro P
    simp only [occurringAt, List.forall_mem_map]
  obtain ⟨hguarantee, _, -, hdone⟩ :=
    hp.run hrun (chronological_occurringAt t h) (hoccurring.2 hrely)
  refine ⟨(hoccurring (P := fun t a => K.guarantee t a.effect)).1 hguarantee, ?_⟩
  cases hdone with
  | done hv => exact hv

section Rules

variable {t : Time} {β : Type} {Q : Time → β → Prop}

theorem nameless_session {c : SessionCall} {f : c.Answer → Script β}
    (hc : (Effect.session c).Nameless) (h : ∀ t' a, (f a).Honours .nameless Q t') :
    (Script.call c >>= f).Honours .nameless Q t :=
  fun t' _ => ⟨hc, fun a _ => h t' a⟩

theorem nameless_randomWord {f : UInt16 → Script β}
    (h : ∀ t' word, (f word).Honours .nameless Q t') :
    (Script.randomWord >>= f).Honours .nameless Q t :=
  fun t' _ => ⟨nofun, fun a _ => h t' a⟩

theorem nameless_limit {c : Context} {seconds : UInt64} {f : Context → Script β}
    (h : ∀ t' child, (f child).Honours .nameless Q t') :
    (Script.limit c seconds >>= f).Honours .nameless Q t :=
  fun t' _ => ⟨nofun, fun _ _ => h t' _⟩

end Rules

namespace UdpLookup

theorem blameless_received {address : SocketAddress} {query : List UInt8} {type : Dns.RecordType}
    {answer : Except Interruption Dns.Inbox}
    (h : (Attempt.ask address query).ReportsSystem answer) :
    Blameless (received query type answer) := by
  intro failure hfailure
  cases answer with
  | error i =>
    obtain rfl := Except.error.inj hfailure
    exact not_isInvalidName_interruption i
  | ok inbox =>
    obtain ⟨number, hfault⟩ := h
    have hread : Dns.readReply query type inbox = .error failure := hfailure
    unfold Dns.readReply at hread
    split at hread
    · rw [hfault] at hread
      obtain rfl := Except.error.inj hread
      exact not_isInvalidName_system number
    next reply _ =>
    split at hread
    · cases hread
    · next e hdecode =>
      obtain rfl := Except.error.inj hread
      exact Dns.nameless_decodeResponse reply type e hdecode

/-- The failure of a lookup is one of those of its queries, or that there is no answer. -/
theorem blameless_merge {a b : Found} (ha : Blameless a) (hb : Blameless b) :
    Blameless (merge a b) := by
  intro f hf
  simp only [merge] at hf
  split at hf
  · obtain rfl := Except.error.inj hf
    rw [failure]
    cases hfind : ([failureOf a, failureOf b].filterMap id).find? (· ≠ FailureName.dnsNoAnswer) with
    | none => exact not_isInvalidName_of_first (by decide)
    | some f =>
      have hmem := List.mem_of_find?_eq_some hfind
      simp only [List.mem_filterMap, List.mem_cons, List.not_mem_nil, or_false, id] at hmem
      obtain ⟨_, rfl | rfl, hfound⟩ := hmem
      · cases a with
        | ok records => cases hfound
        | error g => exact ha f (by rw [Option.some.inj hfound])
      · cases b with
        | ok records => cases hfound
        | error g => exact hb f (by rw [Option.some.inj hfound])
  · cases hf

theorem blameless_record {trace : TraceId} {resolver : Resolver} {domain : String}
    {type : Dns.RecordType} {found : Found} (h : Blameless found) :
    ∀ failure, (record trace resolver domain type found).failure = some failure →
      ¬ IsInvalidName failure := by
  intro failure hfailure
  cases found with
  | ok records => cases hfailure
  | error f => exact h failure (by rw [Option.some.inj hfailure])

section

variable {domain : String} (hdomain : parseDomain domain = .ok domain) (resolver : Resolver)
include hdomain

/-- Both queries are written, so only their answers can make them fail. -/
theorem nameless_query (c : Context) {t : Time} {Q : Time → Found × Found → Prop}
    (hQ : ∀ t' found, Blameless found.1 → Blameless found.2 → Q t' found) :
    (query c resolver domain).Honours .nameless Q t := by
  refine nameless_randomWord fun _ x => nameless_randomWord fun _ y => ?_
  obtain ⟨a, ha⟩ := exists_encodeQuery_of_parseDomain hdomain x Dns.typeA
  obtain ⟨b, hb⟩ := exists_encodeQuery_of_parseDomain hdomain y Dns.typeAAAA
  rw [ha, hb]
  -- With both queries written it is up to the resolver whether anything is asked.
  cases resolver with
  | unusable text =>
    have hunusable : Blameless
        (.error (FailureName.unknown ("invalid endpoint " ++ Text.quote text)) : Found) := by
      rintro failure ⟨⟩
      exact not_isInvalidName_endpoint _
    exact hQ _ _ hunusable hunusable
  | «at» address =>
    refine fun t' _ => ⟨nofun, fun answers hanswers => hQ t' _ ?_ ?_⟩
    · exact blameless_received hanswers.1
    · exact blameless_received hanswers.2

/-- The records tell what the queries came to, and so does the failure. -/
theorem nameless_call (s : Scope) (name : String) {t : Time} :
    (call s resolver domain).Honours .nameless
      (fun _ o => ∀ e, o.value name .resolved = .error e → ¬ IsInvalidName e.failure) t := by
  refine nameless_session nofun fun _ trace => nameless_session nofun fun _ _ => ?_
  refine nameless_limit fun _ child => Script.honours_bind.2 ?_
  refine nameless_query hdomain resolver child fun _ found ha hb => ?_
  have hrecords : (Effect.session (.save { lookups :=
      [record trace resolver domain Dns.typeA found.1,
        record trace resolver domain Dns.typeAAAA found.2] })).Nameless := by
    rintro o ⟨⟩
    exact List.forall_mem_cons.2
      ⟨blameless_record ha, List.forall_mem_singleton.2 (blameless_record hb)⟩
  refine nameless_session hrecords fun _ _ => nameless_session nofun fun _ _ => ?_
  have hmerge := blameless_merge ha hb
  cases hfound : merge found.1 found.2 with
  | ok addresses => exact nofun
  | error failure =>
    rintro e ⟨⟩
    exact hmerge failure hfound

/-- No run of a lookup blames the name. -/
theorem nameless_of_run {s : Scope} {h : List Action} {v : Value}
    (hrun : Activity.Run ((Leaf.lookupUdp resolver).apply s (.lookup domain)) h (.done v))
    (hreports : ∀ a ∈ h, a.ReportsSystem) :
    (∀ e, v = .error e → ¬ IsInvalidName e.failure) ∧ ∀ a ∈ h, a.effect.Nameless := by
  have hhonours : ((Leaf.lookupUdp resolver).apply s (.lookup domain)).Honours .nameless 0
      fun v => ∀ e, v = .error e → ¬ IsInvalidName e.failure :=
    Script.Honours.activity (Script.honours_bind.2
      (nameless_call hdomain resolver s "dns_lookup_udp"))
  exact (hhonours.run_at hrun hreports).symm

end

end UdpLookup

/-! ## Both checks -/

/-- The check of domains and the writing of queries draw the same line, but for characters that are
    not visible, and a domain is given on as it is. So no lookup of a domain that was accepted, and
    is not empty, blames the name, while sockets report errors of the operating system. -/
theorem parseDomain_agrees :
    (∀ text id type,
      ((∃ domain, parseDomain text = .ok domain) ↔
        (∃ query, Dns.encodeQuery id text type = .ok query) ∧
          ∀ b ∈ Text.toBytes text, IsVisibleByte b) ∧
      ∀ domain, parseDomain text = .ok domain → domain = text) ∧
    ∀ domain, IsAccepted domain → domain ≠ "" →
      (∀ id type, ∃ query, Dns.encodeQuery id domain type = .ok query) ∧
      ∀ s resolver h v,
        Activity.Run ((Leaf.lookupUdp resolver).apply s (.lookup domain)) h (.done v) →
        (∀ a ∈ h, a.ReportsSystem) →
        (∀ e, v = .error e → ¬ IsInvalidName e.failure) ∧ ∀ a ∈ h, a.effect.Nameless := by
  constructor
  · intro text id type
    exact ⟨exists_parseDomain_iff text id type, fun _ => Piece.eq_of_parseDomain⟩
  · intro domain haccepted hdomain
    have hparse := haccepted.parseDomain hdomain
    refine ⟨exists_encodeQuery_of_parseDomain hparse, ?_⟩
    intro s resolver h v hrun hreports
    exact UdpLookup.nameless_of_run hparse resolver hrun hreports

/-- Whatever is answered can be answered so that a script comes to its end. -/
theorem Script.exists_run {P : Action → Prop} (hP : ∀ e, ∃ answer, P ⟨e, answer⟩)
    (x : Script Value) : ∃ h v, Activity.Run x.activity h (.done v) ∧ ∀ a ∈ h, P a := by
  induction x with
  | done v => exact ⟨[], v, .refl _, List.forall_mem_nil _⟩
  | perform e next ih =>
    obtain ⟨answer, hanswer⟩ := hP e
    obtain ⟨h, v, hrun, hh⟩ := ih answer
    have hstep := Activity.Step.perform e (fun answer => (next answer).activity) answer
    exact ⟨_, v, .head hstep hrun, List.forall_mem_cons.2 ⟨hanswer, hh⟩⟩

/-- A resolver may refuse every query. -/
theorem exists_reportsSystem (e : Effect) : ∃ answer, Action.ReportsSystem ⟨e, answer⟩ := by
  have hattempt (a : Attempt) : ∃ answer, a.ReportsSystem answer := by
    cases a with
    | ask resolver query => exact ⟨.ok ⟨[], .system SystemError.connectionRefused⟩, _, rfl⟩
    | _ => exact ⟨.error .cancelled, trivial⟩
  cases e with
  | session c => exact ⟨(c.run {}).1, trivial⟩
  | now => exact ⟨(0 : Nat), trivial⟩
  | randomWord => exact ⟨(0 : UInt16), trivial⟩
  | attempt c a => exact hattempt a
  | attemptBoth c a b =>
    obtain ⟨x, hx⟩ := hattempt a
    obtain ⟨y, hy⟩ := hattempt b
    exact ⟨(x, y), hx, hy⟩

/-- A domain with a dot at its end is accepted, and one with a space is not, though it could be
    asked for. -/
theorem parseDomain_agrees_dotted :
    let s : Scope := { context := .root 0 }
    let resolver : Resolver := .at ⟨.v4 ⟨0x7f000001⟩, 53, 0⟩
    parseDomain "a.org." = .ok "a.org." ∧
    (∃ query, Dns.encodeQuery 1 "a b" Dns.typeA = .ok query) ∧
    (¬ ∃ domain, parseDomain "a b" = .ok domain) ∧
    ∃ h v, Activity.Run ((Leaf.lookupUdp resolver).apply s (.lookup "a.org.")) h (.done v) ∧
      (∀ e, v = .error e → ¬ IsInvalidName e.failure) ∧ ∀ a ∈ h, a.effect.Nameless := by
  intro s resolver
  have hparse : parseDomain "a.org." = .ok "a.org." := by decide +kernel
  have hquery : Dns.encodeQuery 1 "a b" Dns.typeA =
      .ok [0, 1, 1, 0, 0, 1, 0, 0, 0, 0, 0, 0, 3, 0x61, 0x20, 0x62, 0, 0, 1, 0, 1] := by
    decide +kernel
  have hspace : (0x20 : UInt8) ∈ Text.toBytes "a b" :=
    (Text.mem_toBytes_iff (c := ' ') (by decide) "a b").2 (by decide)
  have hbuilt : ∃ p, Piece.domainName "a.org." = .ok p := by
    rw [Piece.domainName, hparse]
    exact ⟨_, rfl⟩
  obtain ⟨p, hpiece⟩ := hbuilt
  obtain ⟨hagrees, haccepted⟩ := parseDomain_agrees
  refine ⟨hparse, ⟨_, hquery⟩, ?_, ?_⟩
  · intro hdomain
    have hvisible := ((hagrees "a b" 1 Dns.typeA).1.1 hdomain).2 _ hspace
    exact absurd hvisible.1 (by decide)
  · obtain ⟨h, v, hrun, hreports⟩ := Script.exists_run exists_reportsSystem
      ((UdpLookup.call s resolver "a.org.").bind fun o => .done (o.value "dns_lookup_udp" .resolved))
    obtain ⟨hvalue, hsaved⟩ :=
      (haccepted "a.org." (.built hpiece) (by decide)).2 s resolver h v hrun hreports
    exact ⟨h, v, hrun, hvalue, hsaved⟩

end NetProbe
