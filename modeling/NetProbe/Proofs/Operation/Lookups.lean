import NetProbe.Proofs.Operation.Leaves
import NetProbe.Proofs.Run.Termination
set_option autoImplicit false

/-! # Two queries as one lookup

A resolver is asked for both types of addresses. Whatever the two queries come to, the lookup takes
one trace, leaves one group with a record of each query, and gives the addresses that these records
have in their answers, each once and in the order in which they arrived; if there are none, it fails
with the failure that tells the most (`UdpLookup.call_merges`). -/

namespace NetProbe

/-! ## Addresses without repetition -/

theorem mem_distinct {ip : Ip} {ips : List Ip} : ip ∈ distinct ips ↔ ip ∈ ips := by
  induction ips with
  | nil => rfl
  | cons a rest ih =>
    by_cases ha : ip = a
    · simp [distinct, ha]
    · simp [distinct, ha, ih]

theorem nodup_distinct (ips : List Ip) : (distinct ips).Nodup := by
  induction ips with
  | nil => exact List.nodup_nil
  | cons a rest ih =>
    rw [distinct, List.nodup_cons]
    exact ⟨by simp, ih.filter _⟩

/-- The induction is on the addresses. Behind the first one only others are left, and each of them
    occurs one place later than among the rest. -/
theorem pairwise_distinct (ips : List Ip) :
    (distinct ips).Pairwise fun a b => ips.idxOf a < ips.idxOf b := by
  induction ips with
  | nil => exact .nil
  | cons a rest ih =>
    have hlater : ∀ b ∈ (distinct rest).filter (· ≠ a),
        (a :: rest).idxOf b = rest.idxOf b + 1 := by
      intro b hb
      have hne : b ≠ a := by simpa using List.of_mem_filter hb
      exact List.idxOf_cons_ne rest hne.symm
    rw [distinct, List.pairwise_cons]
    constructor
    · intro b hb
      rw [List.idxOf_cons_self, hlater b hb]
      exact Nat.succ_pos _
    · refine (ih.filter _).imp_of_mem fun {b c} hb hc hlt => ?_
      rw [hlater b hb, hlater c hc]
      exact Nat.succ_lt_succ hlt

/-- Whether these are the addresses among all, each at the place where it first occurs. -/
structure FirstOccurrences (ips all : List Ip) : Prop where
  nodup : ips.Nodup
  mem_iff : ∀ ip, ip ∈ ips ↔ ip ∈ all
  ordered : ips.Pairwise fun a b => all.idxOf a < all.idxOf b

theorem firstOccurrences_distinct (ips : List Ip) : FirstOccurrences (distinct ips) ips :=
  ⟨nodup_distinct ips, fun _ => mem_distinct, pairwise_distinct ips⟩

namespace UdpLookup

open Leaf (IsFoundFor)

/-! ## Two queries -/

theorem addresses_eq_nil_iff {type : Dns.RecordType} {found : Found} (h : IsFoundFor type found) :
    addresses found = [] ↔ ∃ failure, found = .error failure := by
  have hne := h.ne_nil
  cases found with
  | ok records =>
    have hrecords : records ≠ [] := fun hnil => hne (hnil ▸ rfl)
    simp [addresses, hrecords]
  | error failure => simp [addresses]

theorem exists_ok_of_addresses {found : Found} (h : addresses found ≠ []) :
    ∃ records, found = .ok records := by
  cases found with
  | ok records => exact ⟨records, rfl⟩
  | error failure => exact absurd rfl h

/-- Which of the failures of two queries is that of the lookup: the first one that says more than
    that there is no answer. -/
inductive Blames : String → String → String → Prop
  | first {a b : String} : a ≠ FailureName.dnsNoAnswer → Blames a b a
  | second {b : String} : b ≠ FailureName.dnsNoAnswer → Blames FailureName.dnsNoAnswer b b
  | none : Blames FailureName.dnsNoAnswer FailureName.dnsNoAnswer FailureName.dnsNoAnswer

theorem blames_failure (a b : String) : Blames a b (failure (.error a) (.error b)) := by
  by_cases ha : a = FailureName.dnsNoAnswer
  · by_cases hb : b = FailureName.dnsNoAnswer
    · simpa [failure, ha, hb] using Blames.none
    · simpa [failure, ha, hb] using Blames.second hb
  · simpa [failure, ha] using Blames.first ha

/-- Whether a record tells what a query came to. -/
structure Tells (r : LookupRecord) (trace : TraceId) (queryType : String) (found : Found) :
    Prop where
  trace : r.trace = trace
  queryType : r.queryType = queryType
  answers : addressesOf r.answers = addresses found
  failure : r.failure = failureOf found

theorem tells_record (trace : TraceId) (resolver : Resolver) (domain : String)
    (type : Dns.RecordType) (found : Found) :
    Tells (record trace resolver domain type found) trace (Dns.typeName type) found := by
  refine ⟨rfl, rfl, ?_, rfl⟩
  cases found with
  | ok records => simp [record, addressesOf, addresses]
  | error failure => rfl

/-- Whether a lookup that took a session from `σ` to `τ` and came to this value merged what its two
    queries came to, and left these records of them. -/
structure Merges (domain : String) (a b : Found) (ra rb : LookupRecord) (σ : Session) (v : Value)
    (τ : Session) : Prop where
  traces : τ.traces = σ.traces + 1
  saved : τ.saved = σ.saved ++ [{ lookups := [ra, rb] }]
  first : Tells ra (Int.ofNat τ.traces) "A" a
  second : Tells rb (Int.ofNat τ.traces) "AAAA" b
  resolved_iff : (∃ r, v = .resolved r) ↔ (∃ records, a = .ok records) ∨ ∃ records, b = .ok records
  domain : ∀ r, v = .resolved r → r.domain = domain
  addresses : ∀ r, v = .resolved r → FirstOccurrences r.addresses (addresses a ++ addresses b)
  answers : ∀ r, v = .resolved r →
    ∀ ip, ip ∈ r.addresses ↔ ip ∈ addressesOf ra.answers ∨ ip ∈ addressesOf rb.answers
  failed : (¬ ∃ r, v = .resolved r) → ∃ fa fb f, a = .error fa ∧ b = .error fb ∧
    v = .error ⟨"dns_lookup_udp", f⟩ ∧ Blames fa fb f

/-- What the two queries come to decides the value. -/
theorem merges_of_saved {domain : String} {a b : Found} {ra rb : LookupRecord} {σ τ : Session}
    (ha : IsFoundFor Dns.typeA a) (hb : IsFoundFor Dns.typeAAAA b)
    (htraces : τ.traces = σ.traces + 1) (hsaved : τ.saved = σ.saved ++ [{ lookups := [ra, rb] }])
    (hfirst : Tells ra (Int.ofNat τ.traces) "A" a)
    (hsecond : Tells rb (Int.ofNat τ.traces) "AAAA" b) :
    Merges domain a b ra rb σ
      ((Leaf.lookupOutcome domain (merge a b)).value "dns_lookup_udp" .resolved) τ := by
  by_cases hnone : UdpLookup.addresses a ++ UdpLookup.addresses b = []
  -- No query comes to an empty list of records, so without an address both have failed.
  · obtain ⟨hanone, hbnone⟩ := List.append_eq_nil_iff.1 hnone
    obtain ⟨fa, rfl⟩ := (addresses_eq_nil_iff ha).1 hanone
    obtain ⟨fb, rfl⟩ := (addresses_eq_nil_iff hb).1 hbnone
    have hvalue : (Leaf.lookupOutcome domain (merge (.error fa) (.error fb))).value
        "dns_lookup_udp" .resolved =
        .error ⟨"dns_lookup_udp", UdpLookup.failure (.error fa) (.error fb)⟩ := rfl
    rw [hvalue]
    exact {
      traces := htraces, saved := hsaved, first := hfirst, second := hsecond
      resolved_iff := by simp
      domain := nofun, addresses := nofun, answers := nofun
      failed := fun _ => ⟨fa, fb, _, rfl, rfl, rfl, blames_failure fa fb⟩ }
  · have hmerge : merge a b = .ok (distinct (UdpLookup.addresses a ++ UdpLookup.addresses b)) := by
      rw [merge, if_neg]
      rwa [List.isEmpty_iff, Leaf.distinct_eq_nil_iff]
    have hvalue : (Leaf.lookupOutcome domain (merge a b)).value "dns_lookup_udp" .resolved =
        .resolved ⟨domain, distinct (UdpLookup.addresses a ++ UdpLookup.addresses b)⟩ := by
      rw [hmerge]
      rfl
    have hsome : (∃ records, a = .ok records) ∨ ∃ records, b = .ok records := by
      by_cases hanone : UdpLookup.addresses a = []
      · refine .inr (exists_ok_of_addresses fun hbnone => hnone ?_)
        exact List.append_eq_nil_iff.2 ⟨hanone, hbnone⟩
      · exact .inl (exists_ok_of_addresses hanone)
    have hoccur := firstOccurrences_distinct (UdpLookup.addresses a ++ UdpLookup.addresses b)
    rw [hvalue]
    refine {
      traces := htraces, saved := hsaved, first := hfirst, second := hsecond
      resolved_iff := ⟨fun _ => hsome, fun _ => ⟨_, rfl⟩⟩
      domain := ?_, addresses := ?_, answers := ?_
      failed := fun hno => absurd ⟨_, rfl⟩ hno }
    · rintro r ⟨⟩
      rfl
    · rintro r ⟨⟩
      exact hoccur
    · rintro r ⟨⟩ ip
      rw [hoccur.mem_iff, List.mem_append, hfirst.answers, hsecond.answers]

/-! ## The lookup -/

/-- A lookup that leaves open how it asks. -/
def callWith (ask : Context → Script (Found × Found)) (s : Scope) (resolver : Resolver)
    (domain : String) : Script (Outcome Resolved) := do
  let trace ← Script.newTrace
  let message := "DNSLookup[" ++ resolver.text ++ "/udp] " ++ domain
  Script.log (.started trace message)
  let child ← Script.limit s.context s.config.timeouts.dnsLookup
  let (a, b) ← ask child
  Script.save { lookups :=
    [record trace resolver domain Dns.typeA a, record trace resolver domain Dns.typeAAAA b] }
  let found := merge a b
  Script.log (.stopped trace message (failureOf found))
  match found with
  | .ok addresses => return .output { domain, addresses }
  | .error failure => return .failed failure

/-- The activity of a lookup that leaves open how it asks. -/
def activityWith (ask : Context → Script (Found × Found)) (s : Scope) (resolver : Resolver)
    (domain : String) : Activity :=
  outcomeActivity "dns_lookup_udp" .resolved (callWith ask s resolver domain)

/-- The operation asks with its two queries. -/
theorem apply_eq (s : Scope) (resolver : Resolver) (domain : String) :
    (Leaf.lookupUdp resolver).apply s (.lookup domain) =
      activityWith (query · resolver domain) s resolver domain := rfl

/-! ## Every run -/

variable {ask : Context → Script (Found × Found)} {s : Scope} {resolver : Resolver}
  {domain : String}

/-- The lookup takes a trace, asks, and saves what came of it, whatever that is. -/
theorem does_callWith {o : Outcome Resolved} {ds : List Deed}
    (h : (callWith ask s resolver domain).Does o ds) :
    ∃ trace c a b asked, (ask c).Does (a, b) asked ∧
      o = Leaf.lookupOutcome domain (merge a b) ∧
      ds = .traced trace :: (asked ++ [.saved { lookups :=
        [record trace resolver domain Dns.typeA a,
          record trace resolver domain Dns.typeAAAA b] }]) := by
  obtain ⟨trace, time, a, b, asked, rest, ⟨hask, ho⟩, rfl⟩ := by simpa [callWith] using h
  obtain ⟨rfl, rfl⟩ := Leaf.does_lookupOutcome.1 ho
  exact ⟨trace, _, a, b, asked, hask, rfl, by simp⟩

/-- The number of the trace is told by the session, and so is what was saved before. -/
theorem merges_of_run
    (hask : ∀ c a b ds, (ask c).Does (a, b) ds →
      IsFoundFor Dns.typeA a ∧ IsFoundFor Dns.typeAAAA b ∧ ds = [])
    {σ : Session} {h : List Action} {v : Value}
    (hrun : Activity.Run (activityWith ask s resolver domain) h (.done v)) (hgives : σ.Gives h) :
    ∃ c a b ra rb, (ask c).Does (a, b) [] ∧ Merges domain a b ra rb σ v (σ.after h) := by
  obtain ⟨o, hdoes, rfl⟩ := Script.exists_outcome (Activity.traces_of_run hrun)
  obtain ⟨trace, c, a, b, asked, hasked, rfl, hdeeds⟩ := does_callWith hdoes
  obtain ⟨ha, hb, rfl⟩ := hask c a b asked hasked
  have htraced : traced (deeds h) = [trace] := by
    rw [hdeeds]
    rfl
  have htraces : (σ.after h).traces = σ.traces + 1 := by
    rw [σ.traces_after h, htraced]
    rfl
  have htrace : trace = Int.ofNat (σ.after h).traces := by
    have hnumber := Session.traced_eq hgives
    rw [htraced] at hnumber
    rw [htraces]
    simpa using hnumber
  have hsaved : (σ.after h).saved = σ.saved ++ [{ lookups :=
      [record trace resolver domain Dns.typeA a,
        record trace resolver domain Dns.typeAAAA b] }] := by
    rw [σ.saved_after h, hdeeds]
    rfl
  refine ⟨c, a, b, _, _, hasked, merges_of_saved ha hb htraces hsaved ?_ ?_⟩
  · rw [← htrace]
    exact tells_record trace resolver domain Dns.typeA a
  · rw [← htrace]
    exact tells_record trace resolver domain Dns.typeAAAA b

/-- Whatever two queries may come to, a lookup that they come to merges it, and so does the lookup
    of the operation with what its own queries come to. -/
theorem call_merges (s : Scope) (resolver : Resolver) (domain : String) (σ : Session) :
    (∀ a b, IsFoundFor Dns.typeA a → IsFoundFor Dns.typeAAAA b →
      (activityWith (fun _ => pure (a, b)) s resolver domain).Settles
        (fun v τ => ∃ ra rb, Merges domain a b ra rb σ v τ) σ) ∧
    ((Leaf.lookupUdp resolver).apply s (.lookup domain)).Settles
      (fun v τ => ∃ c a b ra rb, (query c resolver domain).Does (a, b) [] ∧
        IsFoundFor Dns.typeA a ∧ IsFoundFor Dns.typeAAAA b ∧ Merges domain a b ra rb σ v τ) σ := by
  constructor
  · intro a b ha hb
    refine Activity.settles_of_run fun h v hrun hgives => ?_
    obtain ⟨_, a', b', ra, rb, hab, hmerges⟩ := merges_of_run (fun _ _ _ _ hdoes => by
      obtain ⟨hab, rfl⟩ := hdoes
      obtain ⟨rfl, rfl⟩ := Prod.mk.inj hab
      exact ⟨ha, hb, rfl⟩) hrun hgives
    obtain ⟨rfl, rfl⟩ := Prod.mk.inj hab.1
    exact ⟨ra, rb, hmerges⟩
  · rw [apply_eq]
    refine Activity.settles_of_run fun h v hrun hgives => ?_
    obtain ⟨c, a, b, ra, rb, hdoes, hmerges⟩ :=
      merges_of_run (fun _ _ _ _ => Leaf.does_query) hrun hgives
    obtain ⟨ha, hb, -⟩ := Leaf.does_query hdoes
    exact ⟨c, a, b, ra, rb, hdoes, ha, hb, hmerges⟩

/-- One address that is in a response twice, and no answer to the other query in time. -/
theorem call_merges_partial :
    let s : Scope := { context := .root 0 }
    let resolver : Resolver := .at ⟨.v4 ⟨0x7f000001⟩, 53, 0⟩
    let msg : Dns.Bytes := [0, 1, 0x80, 0, 0, 0, 0, 2, 0, 0, 0, 0,
      0, 0, 1, 0, 1, 0, 0, 0, 60, 0, 4, 192, 0, 2, 1,
      0, 0, 1, 0, 1, 0, 0, 0, 30, 0, 4, 192, 0, 2, 1]
    let ip : Ip := .v4 (Ipv4.ofBytes [192, 0, 2, 1])
    let a : Found := .ok [⟨ip, 60⟩, ⟨ip, 30⟩]
    let b : Found := .error "generic_timeout_error"
    Dns.decodeResponse msg Dns.typeA = .ok [⟨ip, 60⟩, ⟨ip, 30⟩] ∧
    (activityWith (fun _ => pure (a, b)) s resolver "org").Settles (fun v τ =>
      τ.traces = 1 ∧ (∃ ra rb, τ.saved = [{ lookups := [ra, rb] }]) ∧
      ∃ r, v = .resolved r ∧ r.addresses.Nodup ∧ ∀ x, x ∈ r.addresses ↔ x = ip) {} := by
  intro s resolver msg ip a b
  have hmsg : Dns.decodeResponse msg Dns.typeA = .ok [⟨ip, 60⟩, ⟨ip, 30⟩] := by decide +kernel
  have ha : IsFoundFor Dns.typeA a := by
    intro records hrecords
    obtain rfl := Except.ok.inj hrecords
    exact ⟨msg, hmsg⟩
  have hsettles := (call_merges s resolver "org" {}).1 a b ha (Leaf.isFoundFor_error _ _)
  refine ⟨hmsg, Activity.settles_of_run fun h v hrun hgives => ?_⟩
  obtain ⟨ra, rb, hmerges⟩ := hsettles.of_run hrun hgives
  obtain ⟨r, rfl⟩ := hmerges.resolved_iff.2 (.inl ⟨_, rfl⟩)
  have hoccur := hmerges.addresses r rfl
  refine ⟨hmerges.traces, ⟨ra, rb, hmerges.saved⟩, r, rfl, hoccur.nodup, fun x => ?_⟩
  rw [hoccur.mem_iff]
  simp [UdpLookup.addresses, a, b]

end UdpLookup

end NetProbe
