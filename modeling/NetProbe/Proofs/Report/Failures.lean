import NetProbe.Proofs.Report.Evaluation
set_option autoImplicit false

/-! # Nothing fails in silence

A call of a leaf that measures something saves one group of observations, all with the trace of the
call and with a record of what the call comes to, unless it is refused. A failure that is left at
the end of an evaluation was the outcome of some call: sequences and fan-outs make no failures of
their own, `Course.invariant_blamed`. So the report has a record of it. -/

namespace NetProbe

/-! ## Calls of leaves -/

namespace Leaf

/-- Whether the leaf measures something. -/
def measures : Leaf → Bool
  | domainName _ | makeEndpoints _ => false
  | _ => true

/-- Whether the leaf makes connections. -/
def connects : Leaf → Bool
  | tcpConnect | tlsHandshake _ | quicHandshake _ => true
  | _ => false

/-- The traces of a call: the one that it was handed out, or the one of its connection. -/
def callTraces (v : Value) (ds : List Deed) : List TraceId :=
  traced ds ++ (v.connection?.map Connection.trace).toList

/-- What a call leaves behind in a session when it comes to a value. -/
structure Archives (l : Leaf) (v w : Value) (h : List Action) (σ : Session) : Prop where
  /-- Nothing is saved by a call that is refused. -/
  refused : w.exception? ≠ none → (σ.after h).saved = σ.saved
  /-- One group is saved by any other call, with the trace of the call, and with a record of its
      failure or of its success. -/
  group : w.exception? = none → ∃ o trace, (σ.after h).saved = σ.saved ++ [o] ∧
    callTraces v (deeds h) = [trace] ∧ (∀ t ∈ o.traces, t = trace) ∧
    w.error?.map Failure.failure ∈ l.outcomes o
  operation : ∀ f, w = .error f → f.operation = l.name
  /-- A connection that was made is to be closed, and nothing else is. -/
  tracked : (σ.after h).tracked = σ.tracked + if l.connects ∧ w.isSentinel = false then 1 else 0

/-- One group is saved, with the trace of the call and with a record of what it comes to. -/
def OneGroup (l : Leaf) (v w : Value) (ds : List Deed) : Prop :=
  ∃ o trace, saves ds = [o] ∧ callTraces v ds = [trace] ∧ (∀ t ∈ o.traces, t = trace) ∧
    w.error?.map Failure.failure ∈ l.outcomes o

variable {l : Leaf} {v w : Value} {ds : List Deed}

theorem oneGroup_lookup {domain : String} {trace : TraceId} {rs : List LookupRecord}
    (hone : OneLookup trace rs)
    (houtcome : w.error?.map Failure.failure ∈ l.outcomes { lookups := rs }) :
    l.OneGroup (.lookup domain) w [.traced trace, .saved { lookups := rs }] := by
  refine ⟨_, trace, rfl, rfl, fun t ht => ?_, houtcome⟩
  cases hone with
  | one hr _ => simpa [Observations.traces, hr] using ht
  | two ha _ _ hb _ _ => simpa [Observations.traces, ha, hb] using ht

theorem Borrows.deeds {id : SlotId} (h : Borrows id ds) :
    traced ds = [] ∧ saves ds = [] ∧ closersMade ds = [] := by
  cases h <;> exact ⟨rfl, rfl, rfl⟩

theorem oneGroup_request {a : HttpArguments} {c : Connection} {r : Http.Request}
    {result : Except String Http.ResponseParts} (hds : Borrows c.slot ds)
    (hw : w.error?.map Failure.failure = failureOf result) :
    (httpTransaction a).OneGroup (.connection c) w
      (ds ++ [.saved (HttpTransaction.observations c r result)]) := by
  obtain ⟨htraced, hsaves, -⟩ := Borrows.deeds hds
  refine ⟨HttpTransaction.observations c r result, c.trace, ?_, ?_, fun t ht => ?_, ?_⟩
  · rw [saves_append, hsaves]
    rfl
  · rw [callTraces, traced_append, htraced]
    rfl
  · simpa [Observations.traces, HttpTransaction.observations] using ht
  · simp [outcomes, HttpTransaction.observations, hw]

theorem Did.oneGroup (hdid : l.Did v w ds) (hl : l.measures = true) (hv : v.isSentinel = false)
    (hw : w.exception? = none) : l.OneGroup v w ds := by
  cases hdid with
  | passed hpassed => rw [hv] at hpassed; cases hpassed
  | refused => cases hw
  | unavailable => cases hw
  | domainName => cases hl
  | makeEndpoints => cases hl
  | lookupFailed hone houtcome => exact oneGroup_lookup hone houtcome
  | lookedUp hone houtcome => exact oneGroup_lookup hone houtcome
  | connectFailed => exact ⟨_, _, rfl, rfl, by simp [Observations.traces],
      by simp [outcomes, Value.error?]⟩
  | connected => exact ⟨_, _, rfl, rfl, by simp [Observations.traces],
      by simp [outcomes, Value.error?]⟩
  | tlsFailed => exact ⟨_, _, rfl, rfl, by simp [Observations.traces],
      by simp [outcomes, Value.error?]⟩
  | tlsDone => exact ⟨_, _, rfl, rfl, by simp [Observations.traces],
      by simp [outcomes, Value.error?]⟩
  | quicFailed => exact ⟨_, _, rfl, rfl, by simp [Observations.traces],
      by simp [outcomes, Value.error?]⟩
  | quicDone => exact ⟨_, _, rfl, rfl, by simp [Observations.traces],
      by simp [outcomes, Value.error?]⟩
  | requestFailed hds => exact oneGroup_request hds rfl
  | requested hds => exact oneGroup_request hds rfl

theorem Did.saves_eq_nil (hdid : l.Did v w ds) (hv : v.isSentinel = false)
    (hw : w.exception? ≠ none) : saves ds = [] := by
  cases hdid with
  | passed => rfl
  | refused => rfl
  | unavailable => rfl
  | _ => exact absurd rfl hw

theorem measures_of_outcome {rs : List LookupRecord} {outcome : Option String}
    (h : outcome ∈ l.outcomes { lookups := rs }) : l.measures = true := by
  cases l <;> first | rfl | cases h

/-- A call that fails has saved a record of the failure. -/
theorem Did.exists_failure {f : Failure} (hdid : l.Did v (.error f) ds)
    (hv : v.isSentinel = false) : ∃ o ∈ saves ds, some f.failure ∈ l.outcomes o := by
  have hmeasures : l.measures = true := by
    cases hdid with
    | passed hpassed => rw [hv] at hpassed; cases hpassed
    | lookupFailed _ houtcome => exact measures_of_outcome houtcome
    | _ => rfl
  obtain ⟨o, _, hsaves, -, -, houtcome⟩ := hdid.oneGroup hmeasures hv rfl
  exact ⟨o, hsaves ▸ List.mem_singleton_self o, houtcome⟩

theorem Did.operation_eq (hdid : l.Did v w ds) (hv : v.isSentinel = false) {f : Failure}
    (hw : w = .error f) : f.operation = l.name := by
  subst hw
  cases hdid with
  | passed hpassed => rw [hv] at hpassed; cases hpassed
  | _ => rfl

theorem connects_eq_false {rs : List LookupRecord} {outcome : Option String}
    (h : outcome ∈ l.outcomes { lookups := rs }) : l.connects = false := by
  cases l <;> first | rfl | cases h

theorem Did.length_closersMade (hdid : l.Did v w ds) (hv : v.isSentinel = false) :
    (closersMade ds).length = if l.connects = true ∧ w.isSentinel = false then 1 else 0 := by
  cases hdid with
  | passed hpassed => rw [hv] at hpassed; cases hpassed
  | refused => simp [closersMade, Value.isSentinel]
  | unavailable => simp [closersMade, Value.isSentinel, Deed.closer?]
  | lookupFailed => simp [closersMade, Value.isSentinel, Deed.closer?]
  | lookedUp _ houtcome => simp [closersMade, connects_eq_false houtcome, Deed.closer?]
  | requestFailed hds =>
    obtain ⟨-, -, hclosers⟩ := Borrows.deeds hds
    rw [closersMade_append, hclosers]
    rfl
  | requested hds =>
    obtain ⟨-, -, hclosers⟩ := Borrows.deeds hds
    rw [closersMade_append, hclosers]
    rfl
  | _ => rfl

theorem archives_of_did {h : List Action} (hl : l.measures = true) (hv : v.isSentinel = false)
    (hdid : l.Did v w (deeds h)) (σ : Session) : l.Archives v w h σ where
  refused hw := by rw [σ.saved_after, hdid.saves_eq_nil hv hw, List.append_nil]
  group hw := by
    obtain ⟨o, trace, hsaves, hrest⟩ := hdid.oneGroup hl hv hw
    exact ⟨o, trace, by rw [σ.saved_after, hsaves], hrest⟩
  operation f hf := hdid.operation_eq hv hf
  tracked := by rw [σ.tracked_after, hdid.length_closersMade hv]

end Leaf

/-! ## Failures at the end -/

/-- A failure at the end of a course was there at its start, or is what a call came to. -/
def Course.Blamed (v : Value) (c : Course) : Prop :=
  ∀ f, c.output = .error f →
    v = .error f ∨ ∃ call ∈ c.calls, call.input.isSentinel = false ∧ call.output = .error f

theorem Value.Plain.ne_error {v : Value} (hv : v.Plain) (f : Failure) : v ≠ .error f := by
  cases hv <;> nofun

theorem Course.invariant_blamed : Course.Invariant Course.Blamed where
  still v w hw f hf := by
    rcases hw with rfl | hw
    · exact .inl hf
    · exact absurd hf (hw.ne_error f)
  call l place v w h hdid f hf := by
    cases hv : v.isSentinel with
    | false => exact .inr ⟨_, List.mem_singleton_self _, hv, hf⟩
    | true =>
      obtain ⟨rfl, -⟩ := hdid.eq_of_isSentinel hv
      exact .inl hf
  followedBy v a b ha hb f hf := by
    rcases hb f hf with hmid | ⟨call, hcall, hblame⟩
    · rcases ha f hmid with hv | ⟨call, hcall, hblame⟩
      · exact .inl hv
      · exact .inr ⟨call, List.mem_append_left _ hcall, hblame⟩
    · exact .inr ⟨call, List.mem_append_right _ hcall, hblame⟩
  gathers v reduce bs c _ hplain hc f hf := by
    obtain ⟨vs, -, houtput, -⟩ := hc
    exact absurd (houtput.symm.trans hf) ((hplain vs).ne_error f)

theorem Leaf.additive_outcomes (l : Leaf) :
    Observations.Additive fun o => (↑(l.outcomes o) : Multiset (Option String)) :=
  .ofList (by cases l <;> rfl) fun a b => by cases l <;> simp [outcomes]

theorem Leaf.mem_outcomes_reduce {l : Leaf} {groups : List Observations} {o : Observations}
    {outcome : Option String} (ho : o ∈ groups) (h : outcome ∈ l.outcomes o) :
    outcome ∈ l.outcomes (Observations.reduce groups) := by
  have hle : (↑(l.outcomes o) : Multiset (Option String))
      ≤ ↑(l.outcomes (Observations.reduce groups)) := by
    rw [l.additive_outcomes.reduce]
    exact List.le_sum_of_mem (List.mem_map_of_mem ho)
  exact Multiset.mem_of_le hle h

/-- The failure at the end of an evaluation, if there is one, has a record of the kind of its
    operation. -/
def Report.Backed (r : Report) : Prop :=
  ∀ f, r.ended = .ok (some f) →
    ∃ l : Leaf, f.operation = l.name ∧ some f.failure ∈ l.outcomes r.observations

/-- What ended with a failure gave the failure. -/
theorem Ended.eq_error_of_ofValue {v : Value} {f : Failure} (h : Ended.ofValue v = .ok (some f)) :
    v = .error f := by
  cases v with
  | error g =>
    obtain rfl := Option.some.inj (Ended.ok.inj h)
    rfl
  | _ => cases h

theorem Operation.Evaluates.backed {n : Node} {op : Operation} {s : Scope} {h : List Action}
    {v : Value} {calls : List Call} (heval : op.Evaluates s v h calls)
    (hop : (Registry.standard.compile n).result = .ok op) (σ : Session) :
    ((σ.after h).report v).1.Backed := by
  intro f hf
  obtain rfl := Ended.eq_error_of_ofValue hf
  obtain ⟨_, -, hblamed⟩ := heval.good hop Course.invariant_blamed
  -- Nothing has failed at the start, so a call is to blame.
  obtain hvoid | ⟨call, hcall, hinput, houtput⟩ := hblamed f rfl
  · cases hvoid
  obtain ⟨l, hdid⟩ := heval.did hop hcall
  rw [houtput] at hdid
  obtain ⟨o, ho, houtcome⟩ := hdid.exists_failure hinput
  have hsaved : o ∈ (σ.after h).saved := by
    rw [σ.saved_after]
    refine List.mem_append_right _ ((((heval.perm_deeds hop).filterMap Deed.saved?).mem_iff).2 ?_)
    rw [List.filterMap_flatMap]
    exact List.mem_flatMap.2 ⟨call, hcall, ho⟩
  exact ⟨l, hdid.operation_eq hinput rfl, Leaf.mem_outcomes_reduce hsaved houtcome⟩

/-- Every call of a leaf that measures something leaves a group of observations behind, with a
    record of the failure that it comes to or of its success, and with the trace of the call, unless
    it is refused; and one more thing to close if it made a connection. So the failure that is left
    at the end of an evaluation has a record in the report. -/
theorem Report.failures_recorded :
    (∀ (l : Leaf) (s : Scope) (v w : Value) (h : List Action), l.measures = true →
      v.isSentinel = false → (l.apply s v).Run h (.done w) → ∀ σ, l.Archives v w h σ) ∧
    ∀ (n : Node) (op : Operation) (s : Scope), (Registry.standard.compile n).result = .ok op →
      (∀ (σ : Session) (h : List Action) (v : Value), (op.evaluation s).Run h (.done v) →
        ((σ.after h).report v).1.Backed) ∧
      ∀ (e : Surroundings) (moments : Nat) (w w' : World) (report : Report),
        e.evaluate moments s op w = some (report, w') → report.Backed := by
  refine ⟨fun l s v w h hl hv hrun => ?_, fun n op s hop => ?_⟩
  · exact Leaf.archives_of_did hl hv (Leaf.did_of_traces (Activity.traces_of_run hrun))
  have hbacked (σ : Session) (h : List Action) (v : Value)
      (hrun : (op.evaluation s).Run h (.done v)) : ((σ.after h).report v).1.Backed := by
    obtain ⟨calls, heval⟩ := Operation.exists_evaluates hrun
    exact heval.backed hop σ
  refine ⟨hbacked, fun e moments w w' report hevaluate => ?_⟩
  obtain ⟨h, v, hrun, -, hreport⟩ := Surroundings.exists_run_of_evaluate hevaluate
  have hback := hbacked w.session h v hrun
  rwa [hreport] at hback

/-! ### A lookup of no domain -/

namespace NoDomain

/-- Looks up a domain that the program leaves empty. -/
def node : Node :=
  .new "compose" [
    { func := "domain_name", arguments := .object [("domain", .string "")] },
    .new "dns_lookup_getaddrinfo" []]

def operation : Operation :=
  .compose [.leaf (.domainName ""), .leaf .lookupSystem]

def scope : Scope where
  context := .root 0

/-- A network on which nothing is ever answered. -/
def silence : Surroundings where
  network _ _ := none

def failure : Failure where
  operation := "dns_lookup_getaddrinfo"
  failure := "unknown_failure: empty domain"

end NoDomain

open NoDomain in
/-- The lookup fails without asking, and the report tells. -/
theorem Report.failures_recorded_noDomain :
    (Registry.standard.compile node).result = .ok operation ∧
      (∃ h, (Leaf.lookupSystem.apply scope (.lookup "")).Run h (.done (.error failure)) ∧
        Leaf.lookupSystem.Archives (.lookup "") (.error failure) h {}) ∧
      ∃ report w', silence.evaluate 0 scope operation {} = some (report, w') ∧
        report.ended = .ok (some failure) ∧ report.Backed := by
  obtain ⟨hcalls, hreports⟩ := failures_recorded
  have hop : (Registry.standard.compile node).result = .ok operation := rfl
  refine ⟨hop, ?_, ?_⟩
  · obtain ⟨w, hw⟩ : ∃ w, silence.run 0 (Leaf.lookupSystem.apply scope (.lookup "")) {}
        = some (.error failure, w) := ⟨_, rfl⟩
    obtain ⟨h, hrun, -, -⟩ := silence.reaches_of_run hw
    exact ⟨h, hrun, hcalls _ _ _ _ h rfl rfl hrun {}⟩
  · obtain ⟨report, w', hreport, hended⟩ : ∃ report w',
        silence.evaluate 0 scope operation {} = some (report, w') ∧
          report.ended = .ok (some failure) := ⟨_, _, rfl, rfl⟩
    exact ⟨report, w', hreport, hended, (hreports _ _ _ hop).2 _ _ _ _ _ hreport⟩

end NetProbe
