import Mathlib.Data.List.Nodup
import NetProbe.Proofs.Operation.Reductions
import NetProbe.Proofs.Run.Outcomes
import NetProbe.Proofs.Run.Scheduler
set_option autoImplicit false

/-! # Every address that was found is measured once

Programs look a domain up in several ways, make endpoints of the addresses and measure each of
these (`Operation.measuring`). Whatever the lookups find, and however often and in which order they
find it, every address gets one endpoint, and the measurement starts on each endpoint once:
`Operation.addresses_measured`. An activity of such a program is one fan-out behind the other, so
this puts together what each of them does (`Activity.Run.of_all`) and what is handed over between
them. -/

namespace NetProbe

/-! ## Endpoints -/

theorem mem_endpointsOf {port : UInt16} {r : Resolved} {e : Endpoint} :
    e ∈ endpointsOf port r ↔
      ∃ ip ∈ r.addresses, e = { address := { ip, port }, domain := r.domain } := by
  simp only [endpointsOf, List.mem_map, Ip.mem_ascending, eq_comm]

/-- An address does not get a second endpoint. -/
theorem nodup_endpointsOf (port : UInt16) (r : Resolved) : (endpointsOf port r).Nodup := by
  have hinjective : Function.Injective fun ip : Ip =>
      ({ address := { ip, port }, domain := r.domain } : Endpoint) :=
    fun a b h => congrArg (fun e : Endpoint => e.address.ip) h
  exact List.Nodup.map hinjective (Ip.nodup_ascending r.addresses)

namespace Operation

open FanOut (Underway Through effects finishes)

/-- Looks a domain up in several ways, and measures the addresses on a port. -/
def measuring (resolvers : List Operation) (port : UInt16) (body : List Operation) : Operation :=
  .compose [.lookupParallel resolvers, .leaf (.makeEndpoints port), .endpointPipeline body]

variable {s : Scope} {resolvers body : List Operation} {port : UInt16} {domain : String}

/-- The measurement of some endpoints. -/
def bodies (s : Scope) (body : List Operation) (es : List Endpoint) : List Activity :=
  es.map fun e => (compose body).apply s (.endpoint e)

/-! ## From one fan-out to the next -/

theorem apply_measuring : (measuring resolvers port body).apply s (.lookup domain) =
    Activity.all lookupWidth (branches s resolvers (.lookup domain)) fun vs =>
      applyAll s [.leaf (.makeEndpoints port), .endpointPipeline body]
        (mergeLookups domain vs) := by
  rw [measuring, apply, applyAll, apply]
  rfl

theorem applyAll_resolved (r : Resolved) :
    applyAll s [.leaf (.makeEndpoints port), .endpointPipeline body] (.resolved r) =
      Activity.all measureWidth (bodies s body (endpointsOf port r)) fun ws =>
        .done (exceptionOrVoid ws) := by
  simp only [applyAll, apply, bodies]
  rfl

/-- This is the endpoint of an address that one of the finished lookups found. -/
def FoundIn (k : List FanOut.Event) (port : UInt16) (domain : String) (e : Endpoint) : Prop :=
  ∃ f ∈ finishes k, ∃ r, f.2 = .resolved r ∧
    ∃ ip ∈ r.addresses, e = { address := { ip, port }, domain }

theorem mem_endpointsOf_merged {k : List FanOut.Event} {ips : List Ip} {e : Endpoint}
    (hips : ips = Ip.ascending (resolvedAddresses ((finishes k).map Prod.snd))) :
    e ∈ endpointsOf port { domain, addresses := ips } ↔ FoundIn k port domain e := by
  subst hips
  simp only [mem_endpointsOf, Ip.mem_ascending, mem_resolvedAddresses, List.mem_map]
  constructor
  · rintro ⟨ip, ⟨r, ⟨f, hf, hr⟩, hip⟩, rfl⟩
    exact ⟨f, hf, r, hr, ip, hip, rfl⟩
  · rintro ⟨f, hf, r, hr, ip, hip, rfl⟩
    exact ⟨ip, ⟨r, ⟨f, hf, hr⟩, hip⟩, rfl⟩

/-! ## The whole program -/

/-- How far a run has come that measures some endpoints, each once and at most two at a time. -/
structure Measures (s : Scope) (body : List Operation) (es : List Endpoint)
    (k : List FanOut.Event) (r : Activity) : Prop where
  underway : Underway 2 (bodies s body es) k
  through : ∀ w, r = .done w → Through 2 (bodies s body es) k
  result : ∀ w, r = .done w → (w = .void ↔ ∀ f ∈ finishes k, f.2.exception? = none)

theorem measures_of_run {es : List Endpoint} {h : List Action} {r : Activity}
    (hrun : Activity.Run (Activity.all measureWidth (bodies s body es) fun ws =>
      .done (exceptionOrVoid ws)) h r) :
    ∃ k, h = effects k ∧ Measures s body es k r := by
  obtain ⟨k, ⟨hunderway, rfl, hdone⟩ | ⟨hthrough, h', rfl, hend⟩⟩ := hrun.of_all
  · exact ⟨k, rfl, hunderway, fun w hw => absurd hw (hdone w), fun w hw => absurd hw (hdone w)⟩
  · cases hend with
    | refl _ =>
      refine ⟨k, List.append_nil _, hthrough.toUnderway, fun _ _ => hthrough, ?_⟩
      intro w hw
      obtain rfl : exceptionOrVoid ((finishes k).map Prod.snd) = w := Activity.done.inj hw
      rw [exceptionOrVoid_eq_void_iff, List.forall_mem_map]
    | head hstep _ => cases hstep

/-- Every address that was found is measured once. A run that looks a domain up comes to a value,
    however it goes on. Until all lookups have finished nothing else happens. Then, unless one of
    them came to an exception, the measurement starts on one endpoint for each address that any of
    them found, on each of these once and on nothing else, at most two at a time; and the run comes
    to nothing exactly if no measurement comes to an exception. -/
theorem addresses_measured (s : Scope) (resolvers body : List Operation) (port : UInt16)
    (domain : String) :
    (∀ σ, ((measuring resolvers port body).apply s (.lookup domain)).Settles
      (fun _ _ => True) σ) ∧
    ∀ h r, ((measuring resolvers port body).apply s (.lookup domain)).Run h r →
      ∃ k, (Underway lookupWidth (branches s resolvers (.lookup domain)) k ∧ h = effects k ∧
          ∀ w, r ≠ .done w) ∨
        Through lookupWidth (branches s resolvers (.lookup domain)) k ∧
          ((∀ f ∈ finishes k, f.2.exception? = none) →
            ∃ es k', es.Nodup ∧ (∀ e, e ∈ es ↔ FoundIn k port domain e) ∧
              h = effects k ++ effects k' ∧ Measures s body es k' r) := by
  refine ⟨fun σ => Activity.settles_of_run fun _ _ _ _ => trivial, fun h r hrun => ?_⟩
  rw [apply_measuring] at hrun
  obtain ⟨k, hlooking | ⟨hthrough, h', rfl, hrest⟩⟩ := hrun.of_all
  · exact ⟨k, .inl hlooking⟩
  · refine ⟨k, .inr ⟨hthrough, fun hnone => ?_⟩⟩
    rw [mergeLookups_of_forall (List.forall_mem_map.2 hnone), applyAll_resolved] at hrest
    obtain ⟨k', rfl, hmeasures⟩ := measures_of_run hrest
    exact ⟨_, k', nodup_endpointsOf port _, fun e => mem_endpointsOf_merged rfl, rfl, hmeasures⟩

end Operation

/-! ### Two lookups that find the same address -/

namespace SharedAddress

open Operation (branches bodies lookupWidth)
open FanOut (Through effects finishes)

def first : Ip := .v4 ⟨0xc0000201⟩

def second : Ip := .v4 ⟨0xc0000202⟩

def resolvers : List Operation :=
  [.leaf (.lookupStatic [second, first, second]), .leaf (.lookupStatic [first])]

def scope : Scope where
  context := .root 0

/-- Nothing is asked of this network. -/
def network : Surroundings where
  network _ _ := none

def endpoint (ip : Ip) : Endpoint where
  address := { ip, port := 443 }
  domain := "example.com"

theorem eq_of_run_lookupStatic {ips : List Ip} {h : List Action} {v : Value}
    (hrun : ((Leaf.lookupStatic ips).apply scope (.lookup "example.com")).Run h (.done v)) :
    v = .resolved ⟨"example.com", distinct ips⟩ := by
  have hyields : ((Leaf.lookupStatic ips).apply scope (.lookup "example.com")).Yields
      (· = .resolved ⟨"example.com", distinct ips⟩) := fun _ _ _ _ => rfl
  exact hyields.run hrun

theorem finish_cases {k : List FanOut.Event}
    (hk : Through lookupWidth (branches scope resolvers (.lookup "example.com")) k) :
    ∀ f ∈ finishes k, f = (0, .resolved ⟨"example.com", [second, first]⟩) ∨
      f = (1, .resolved ⟨"example.com", [first]⟩) := by
  rintro ⟨i, v⟩ hf
  obtain ⟨p, hp, hrun⟩ := hk.values _ hf
  match i with
  | 0 =>
    obtain rfl := Option.some.inj hp
    exact .inl (congrArg (Prod.mk 0) (eq_of_run_lookupStatic hrun))
  | 1 =>
    obtain rfl := Option.some.inj hp
    exact .inr (congrArg (Prod.mk 1) (eq_of_run_lookupStatic hrun))
  | _ + 2 => cases hp

theorem foundIn_iff {k : List FanOut.Event}
    (hk : Through lookupWidth (branches scope resolvers (.lookup "example.com")) k)
    (e : Endpoint) :
    Operation.FoundIn k 443 "example.com" e ↔ e ∈ [endpoint first, endpoint second] := by
  simp only [List.mem_cons, List.not_mem_nil, or_false]
  constructor
  · rintro ⟨f, hf, r, hr, ip, hip, rfl⟩
    rcases finish_cases hk f hf with rfl | rfl <;> obtain rfl := Value.resolved.inj hr <;>
      simp only [List.mem_cons, List.not_mem_nil, or_false] at hip
    · rcases hip with rfl | rfl
      · exact .inr rfl
      · exact .inl rfl
    · exact .inl (hip ▸ rfl)
  · obtain ⟨v, hv⟩ := hk.exists_finish (i := 0) (Nat.zero_lt_two)
    have hfound := finish_cases hk _ hv
    simp only [Prod.mk.injEq, Nat.zero_ne_one, false_and, or_false, true_and] at hfound
    rintro (rfl | rfl)
    · exact ⟨_, hv, _, hfound, first, by decide, rfl⟩
    · exact ⟨_, hv, _, hfound, second, by decide, rfl⟩

end SharedAddress

open SharedAddress Operation in
/-- Both lookups find the first address, and each address is measured once. -/
theorem Operation.addresses_measured_shared :
    ∃ h k es k', ((measuring resolvers 443 [.discard]).apply scope (.lookup "example.com")).Run h
        (.done .void) ∧
      FanOut.Through lookupWidth (branches scope resolvers (.lookup "example.com")) k ∧
      (∀ f ∈ FanOut.finishes k, f.2.exception? = none) ∧
      es.Perm [endpoint first, endpoint second] ∧ FanOut.Through 2 (bodies scope [.discard] es) k' ∧
      h = FanOut.effects k ++ FanOut.effects k' := by
  obtain ⟨w, hw⟩ : ∃ w, network.run 0 ((measuring resolvers 443 [.discard]).apply scope
      (.lookup "example.com")) {} = some (.void, w) := ⟨_, rfl⟩
  obtain ⟨h, hrun, -, -⟩ := network.reaches_of_run hw
  obtain ⟨-, hruns⟩ := addresses_measured scope resolvers [.discard] 443 "example.com"
  obtain ⟨k, ⟨-, -, hdone⟩ | ⟨hthrough, hmeasured⟩⟩ := hruns h _ hrun
  · exact absurd rfl (hdone .void)
  · have hnone : ∀ f ∈ FanOut.finishes k, f.2.exception? = none := by
      intro f hf
      rcases finish_cases hthrough f hf with rfl | rfl <;> rfl
    obtain ⟨es, k', hnodup, hes, heffects, hmeasures⟩ := hmeasured hnone
    have hperm : es.Perm [endpoint first, endpoint second] :=
      (List.perm_ext_iff_of_nodup hnodup (by decide)).2 fun e =>
        (hes e).trans (foundIn_iff hthrough e)
    exact ⟨h, k, es, k', hrun, hthrough, hnone, hperm, hmeasures.through _ rfl, heffects⟩

end NetProbe
