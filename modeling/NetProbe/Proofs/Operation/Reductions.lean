import NetProbe.Operation
import NetProbe.Proofs.Net.Ip
import NetProbe.Proofs.Run.Completion
import NetProbe.Proofs.Run.History
set_option autoImplicit false

/-! # What the values of branches are reduced to

A fan-out reduces the values of its branches in the order in which they finish. A group of lookups
comes to the first exception among them, or else to all addresses that were found, in strictly
ascending order (`MergesLookups`); the other fan-outs come to the first exception or to nothing
(`VoidOrException`). So the order of the values decides only which exception is the first:
`Operation.branches_reduced`. -/

namespace NetProbe

/-! ## The first exception -/

/-- This is the first exception among some values. -/
def FirstException (vs : List Value) (e : Exception) : Prop :=
  ∃ before after, vs = before ++ .exception e :: after ∧ ∀ v ∈ before, v.exception? = none

theorem Value.exception?_eq_some_iff {v : Value} {e : Exception} :
    v.exception? = some e ↔ v = .exception e := by
  cases v <;> simp [exception?]

theorem firstException?_eq_some_iff {vs : List Value} {e : Exception} :
    firstException? vs = some e ↔ FirstException vs e := by
  rw [firstException?, List.findSome?_eq_some_iff]
  constructor
  · rintro ⟨before, v, after, hvs, hv, hbefore⟩
    obtain rfl := Value.exception?_eq_some_iff.1 hv
    exact ⟨before, after, hvs, hbefore⟩
  · rintro ⟨before, after, hvs, hbefore⟩
    exact ⟨before, .exception e, after, hvs, rfl, hbefore⟩

theorem firstException?_eq_none_iff {vs : List Value} :
    firstException? vs = none ↔ ∀ v ∈ vs, v.exception? = none := by
  rw [firstException?, List.findSome?_eq_none_iff]

theorem FirstException.mem {vs : List Value} {e : Exception} (h : FirstException vs e) :
    .exception e ∈ vs := by
  obtain ⟨before, after, rfl, -⟩ := h
  exact List.mem_append_right _ List.mem_cons_self

/-- Where there is an exception, one of them is the first. -/
theorem exists_firstException {vs : List Value} {e : Exception} (h : .exception e ∈ vs) :
    ∃ e', FirstException vs e' := by
  cases hfirst : firstException? vs with
  | none => cases firstException?_eq_none_iff.1 hfirst _ h
  | some e' => exact ⟨e', firstException?_eq_some_iff.1 hfirst⟩

theorem exists_firstException_iff {vs : List Value} :
    (∃ e, FirstException vs e) ↔ ∃ e, .exception e ∈ vs :=
  ⟨fun ⟨e, he⟩ => ⟨e, he.mem⟩, fun ⟨_, he⟩ => exists_firstException he⟩

/-! ## The two reductions -/

/-- What a group of lookups of a domain comes to, with the values of its branches as they came. -/
structure MergesLookups (domain : String) (vs : List Value) (w : Value) : Prop where
  fails : (∃ e, w = .exception e) ↔ ∃ e, .exception e ∈ vs
  first : ∀ e, w = .exception e → FirstException vs e
  /-- Whatever other values there are, all addresses that were found and no others. -/
  resolves : (∀ v ∈ vs, v.exception? = none) →
    ∃ ips, w = .resolved { domain, addresses := ips } ∧ ips.Pairwise Ip.Before ∧
      ∀ ip, ip ∈ ips ↔ ∃ r, .resolved r ∈ vs ∧ ip ∈ r.addresses

/-- What the other fan-outs come to. -/
structure VoidOrException (vs : List Value) (w : Value) : Prop where
  fails : (∃ e, w = .exception e) ↔ ∃ e, .exception e ∈ vs
  first : ∀ e, w = .exception e → FirstException vs e
  void : w = .void ↔ ∀ v ∈ vs, v.exception? = none

theorem mergeLookups_eq_exception_iff {domain : String} {vs : List Value} {e : Exception} :
    mergeLookups domain vs = .exception e ↔ FirstException vs e := by
  rw [mergeLookups, ← firstException?_eq_some_iff]
  cases firstException? vs <;> simp

theorem exceptionOrVoid_eq_exception_iff {vs : List Value} {e : Exception} :
    exceptionOrVoid vs = .exception e ↔ FirstException vs e := by
  rw [exceptionOrVoid, ← firstException?_eq_some_iff]
  cases firstException? vs <;> simp

theorem exceptionOrVoid_eq_void_iff {vs : List Value} :
    exceptionOrVoid vs = .void ↔ ∀ v ∈ vs, v.exception? = none := by
  rw [exceptionOrVoid, ← firstException?_eq_none_iff]
  cases firstException? vs <;> simp

theorem mergeLookups_of_forall {vs : List Value} (h : ∀ v ∈ vs, v.exception? = none)
    (domain : String) :
    mergeLookups domain vs =
      .resolved { domain, addresses := Ip.ascending (resolvedAddresses vs) } := by
  rw [mergeLookups, firstException?_eq_none_iff.2 h]

theorem mem_resolvedAddresses {vs : List Value} {ip : Ip} :
    ip ∈ resolvedAddresses vs ↔ ∃ r, .resolved r ∈ vs ∧ ip ∈ r.addresses := by
  have hvalue (v : Value) (r : Resolved) : v.resolved? = some r ↔ v = .resolved r := by
    cases v <;> simp [Value.resolved?]
  rw [resolvedAddresses, List.mem_flatMap]
  simp only [List.mem_filterMap, hvalue, exists_eq_right]

theorem mergesLookups (domain : String) (vs : List Value) :
    MergesLookups domain vs (mergeLookups domain vs) where
  fails := by
    simp only [mergeLookups_eq_exception_iff]
    exact exists_firstException_iff
  first _ := mergeLookups_eq_exception_iff.1
  resolves h := by
    refine ⟨_, mergeLookups_of_forall h domain, Ip.pairwise_ascending _, fun ip => ?_⟩
    rw [Ip.mem_ascending, mem_resolvedAddresses]

theorem voidOrException (vs : List Value) : VoidOrException vs (exceptionOrVoid vs) where
  fails := by
    simp only [exceptionOrVoid_eq_exception_iff]
    exact exists_firstException_iff
  first _ := exceptionOrVoid_eq_exception_iff.1
  void := exceptionOrVoid_eq_void_iff

/-! ### In any order -/

section Orders

variable {vs ws : List Value}

theorem ascending_resolvedAddresses_of_perm (h : vs.Perm ws) :
    Ip.ascending (resolvedAddresses vs) = Ip.ascending (resolvedAddresses ws) :=
  Ip.ascending_eq_of_perm ((h.filterMap Value.resolved?).flatMap_right Resolved.addresses)

theorem mergeLookups_of_perm (h : vs.Perm ws) (hvs : ∀ v ∈ vs, v.exception? = none)
    (domain : String) : mergeLookups domain vs = mergeLookups domain ws := by
  have hws : ∀ v ∈ ws, v.exception? = none := fun v hv => hvs v (h.mem_iff.2 hv)
  rw [mergeLookups_of_forall hvs, mergeLookups_of_forall hws,
    ascending_resolvedAddresses_of_perm h]

theorem exceptionOrVoid_of_perm (h : vs.Perm ws) (hvs : ∀ v ∈ vs, v.exception? = none) :
    exceptionOrVoid vs = exceptionOrVoid ws := by
  have hws : ∀ v ∈ ws, v.exception? = none := fun v hv => hvs v (h.mem_iff.2 hv)
  rw [exceptionOrVoid_eq_void_iff.2 hvs, exceptionOrVoid_eq_void_iff.2 hws]

/-- Whether there is an exception among values does not depend on their order. -/
theorem exists_exception_of_perm (h : vs.Perm ws) :
    (∃ e, Value.exception e ∈ vs) ↔ ∃ e, Value.exception e ∈ ws := by
  simp only [h.mem_iff]

end Orders

/-! ## Fan-outs -/

/-- The activity lets some activities run at the same time, and comes to their values reduced in the
    order in which they finish, whatever this order is. -/
structure Reduces (width : Nat) (ps : List Activity) (reduce : List Value → Value)
    (p : Activity) : Prop where
  settles : ∀ σ, p.Settles (fun _ _ => True) σ
  runs : ∀ {h w}, Activity.Run p h (.done w) ↔ ∃ k, FanOut.Through width ps k ∧
    h = FanOut.effects k ∧ w = reduce ((FanOut.finishes k).map Prod.snd)

theorem reduces_all (width : Nat) (ps : List Activity) (reduce : List Value → Value) :
    Reduces width ps reduce (Activity.all width ps fun vs => .done (reduce vs)) where
  settles _ := Activity.settles_of_run fun _ _ _ _ => trivial
  runs := by
    intro h w
    constructor
    · intro hrun
      obtain ⟨k, ⟨-, -, hdone⟩ | ⟨hk, h', rfl, hend⟩⟩ := hrun.of_all
      · exact absurd rfl (hdone w)
      · obtain ⟨rfl, rfl⟩ := (Activity.traces_of_run hend).of_done
        exact ⟨k, hk, List.append_nil _, rfl⟩
    · rintro ⟨k, hk, rfl, rfl⟩
      exact hk.run_all

namespace Operation

/-- Each fan-out has its own branches and reduces their values as they come. In a group of lookups
    that is to the first exception, or else to all addresses that were found; in the others, to the
    first exception or to nothing. Unless there are exceptions, the order makes no difference; and
    it never decides whether there are. -/
theorem branches_reduced (s : Scope) (ops : List Operation) :
    (∀ domain, Reduces lookupWidth (branches s ops (.lookup domain)) (mergeLookups domain)
      ((lookupParallel ops).apply s (.lookup domain))) ∧
    Reduces measureWidth (branches s ops .void) exceptionOrVoid
      ((measureDomains ops).apply s .void) ∧
    (∀ r, Reduces measureWidth (branches s ops (.resolved r)) exceptionOrVoid
      ((measureEndpoints ops).apply s (.resolved r))) ∧
    (∀ es, Reduces measureWidth (es.map fun e => (compose ops).apply s (.endpoint e))
      exceptionOrVoid ((endpointPipeline ops).apply s (.endpoints es))) ∧
    (∀ domain vs, MergesLookups domain vs (mergeLookups domain vs)) ∧
    (∀ vs, VoidOrException vs (exceptionOrVoid vs)) ∧
    ∀ vs ws : List Value, vs.Perm ws →
      ((∀ v ∈ vs, v.exception? = none) →
        (∀ domain, mergeLookups domain vs = mergeLookups domain ws) ∧
        exceptionOrVoid vs = exceptionOrVoid ws) ∧
      (∀ domain, (∃ e, mergeLookups domain vs = .exception e) ↔
        ∃ e, mergeLookups domain ws = .exception e) ∧
      ((∃ e, exceptionOrVoid vs = .exception e) ↔ ∃ e, exceptionOrVoid ws = .exception e) := by
  refine ⟨fun domain => ?_, ?_, fun r => ?_, fun es => ?_, mergesLookups, voidOrException,
    fun vs ws h => ⟨fun hvs => ⟨mergeLookups_of_perm h hvs, exceptionOrVoid_of_perm h hvs⟩,
      fun domain => ?_, ?_⟩⟩
  · rw [apply]
    exact reduces_all lookupWidth _ _
  · rw [apply]
    exact reduces_all measureWidth _ _
  · rw [apply]
    exact reduces_all measureWidth _ _
  · simp only [apply]
    exact reduces_all measureWidth _ _
  · rw [(mergesLookups domain vs).fails, (mergesLookups domain ws).fails]
    exact exists_exception_of_perm h
  · rw [(voidOrException vs).fails, (voidOrException ws).fails]
    exact exists_exception_of_perm h

end Operation

/-! ### Addresses of both versions, found twice, between failures -/

namespace Mixture

def low : Ip := .v4 ⟨0x01020304⟩

def high : Ip := .v4 ⟨0x05060708⟩

def long : Ip := .v6 ⟨0x1⟩

def found (addresses : List Ip) : Value :=
  .resolved { domain := "example.com", addresses }

def values : List Value := [
  found [long, high, low, high],
  .error { operation := "dns_lookup_udp", failure := "generic_timeout_error" },
  .skip,
  found [low, long]]

/-- The same with two exceptions. -/
def faulty : List Value := values ++ [.exception ⟨"first"⟩, .void, .exception ⟨"second"⟩]

end Mixture

open Mixture in
theorem Operation.branches_reduced_mixture :
    values.Perm values.reverse ∧ (∀ v ∈ values, v.exception? = none) ∧
      mergeLookups "example.com" values = found [low, high, long] ∧
      mergeLookups "example.com" values.reverse = found [low, high, long] ∧
      exceptionOrVoid faulty = .exception ⟨"first"⟩ ∧
      ∃ e, exceptionOrVoid faulty.reverse = .exception e := by
  have horders := (branches_reduced { context := .root 0 } []).2.2.2.2.2.2
  have hperm : values.Perm values.reverse := (List.reverse_perm values).symm
  have hnone : ∀ v ∈ values, v.exception? = none := by decide
  have hmerged : mergeLookups "example.com" values = found [low, high, long] := by decide
  have hfirst : exceptionOrVoid faulty = .exception ⟨"first"⟩ := by decide
  have hsame := ((horders _ _ hperm).1 hnone).1 "example.com"
  have hfaulty := (horders _ _ (List.reverse_perm faulty).symm).2.2
  exact ⟨hperm, hnone, hmerged, hsame.symm.trans hmerged, hfirst, hfaulty.1 ⟨_, hfirst⟩⟩

end NetProbe
