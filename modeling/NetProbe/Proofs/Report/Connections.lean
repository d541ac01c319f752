import NetProbe.Proofs.Program.Construction
import NetProbe.Proofs.Report.Evaluation
import NetProbe.Proofs.Run.Custody
set_option autoImplicit false

/-! # Connections are accounted for

A connection comes with the token of its slot, and calls of leaves move tokens: a handshake takes
the stream of one slot to another one, or loses it, and a request puts it back. So at every moment
of an evaluation each stream has one owner, and no call finds its slot empty. At the end there is
one slot for every handshake in the report that succeeded, and each was closed once. -/

namespace NetProbe

/-! ## Closing -/

namespace Session

/-- The slots among the things are closed, and the others are as they were. -/
theorem slots_foldl_closeOne (cs : List Closer) (σ : Session) (id : SlotId) :
    (cs.foldl closeOne σ).slots[id]? =
      if .slot id ∈ cs then σ.slots[id]?.map Slot.close else σ.slots[id]? := by
  induction cs generalizing σ with
  | nil => rfl
  | cons c cs ih =>
    rw [List.foldl_cons, ih]
    cases c with
    | named name => simp [closeOne]
    | slot i =>
      show (if _ then Option.map Slot.close (σ.slots.set i .closed)[id]?
        else (σ.slots.set i .closed)[id]?) = _
      -- A slot that stands in the list twice is closed already at the second time.
      by_cases hid : i = id
      · subst hid
        by_cases hi : i < σ.slots.length <;> simp [Slot.close, hi]
      · simp [List.getElem?_set_ne hid, Ne.symm hid]

/-- Nothing is closed before the end. -/
theorem closings_deed (σ : Session) (d : Deed) : (d.after σ).closings = σ.closings := by
  have hslot := σ.after_eq_of_slot d
  cases d with
  | took id _ | restored id _ =>
    obtain ⟨slots, -, hafter⟩ := hslot nofun
    simp [hafter]
  | _ => rfl

/-- Every slot of the session is closed, each was closed once, and nothing else was. -/
structure Settled (τ : Session) : Prop where
  untracked : τ.tracked = 0
  closings : τ.closings = (List.range τ.slots.length).map .slot
  closed : ∀ slot ∈ τ.slots, slot = .closed

/-- At the end of an evaluation everything is closed that is tracked. -/
theorem settled_report {σ : Session} (hclosings : σ.closings = [])
    (hclosers : σ.closers = (List.range σ.slots.length).map .slot) (v : Value) :
    (σ.report v).2.Settled ∧ (σ.report v).2.slots.length = σ.slots.length := by
  have hslots (id : SlotId) :
      (σ.report v).2.slots[id]? = σ.slots[id]?.map Slot.close := by
    show (σ.closers.foldl closeOne { σ with saved := [], closers := [] }).slots[id]? = _
    rw [slots_foldl_closeOne, hclosers]
    split
    · rfl
    · next hid =>
      have hlt : ¬id < σ.slots.length := fun hlt =>
        hid (List.mem_map_of_mem (List.mem_range.2 hlt))
      simp [List.getElem?_eq_none (Nat.le_of_not_lt hlt)]
  have hlist : (σ.report v).2.slots = σ.slots.map Slot.close :=
    List.ext_getElem? fun id => by rw [hslots, List.getElem?_map]
  have hlength : (σ.report v).2.slots.length = σ.slots.length := by rw [hlist, List.length_map]
  obtain ⟨_, hclose⟩ := exists_foldl_closeOne σ.closers { σ with saved := [], closers := [] }
  refine ⟨⟨?_, ?_, fun slot hslot => ?_⟩, hlength⟩
  · show (σ.closers.foldl closeOne { σ with saved := [], closers := [] }).closers.length = 0
    rw [hclose]
    rfl
  · show (σ.closers.foldl closeOne { σ with saved := [], closers := [] }).closings = _
    rw [hlength, ← hclosers, hclose, hclosings]
    exact List.nil_append _
  · rw [hlist] at hslot
    obtain ⟨_, -, rfl⟩ := List.mem_map.1 hslot
    rfl

end Session

/-! ## Tokens of values -/

open Token

/-- What a value comes with. -/
def Value.tokens : Value → Multiset Token
  | .connection c => {full c.slot}
  | _ => 0

namespace Moves

variable {A B C : Multiset Token} {ds : List Deed}

theorem traced (trace : TraceId) (h : Moves A ds B) : Moves A (.traced trace :: ds) B :=
  .step (.traced trace) (zero_add A).symm (by rwa [zero_add])

theorem saved (o : Observations) (h : Moves A ds B) : Moves A (.saved o :: ds) B :=
  .step (.saved o) (zero_add A).symm (by rwa [zero_add])

end Moves

namespace Value

theorem number?_of_mem_tokens {v : Value} {t : Token} (ht : t ∈ v.tokens) : t.number? = none := by
  cases v with
  | connection c =>
    obtain rfl := Multiset.mem_singleton.1 ht
    rfl
  | _ => exact absurd ht (Multiset.notMem_zero t)

/-- A value that is of no use any more. -/
theorem moves_forget (v : Value) : Moves v.tokens [] 0 :=
  .done (zero_add _).symm fun _ => number?_of_mem_tokens

theorem Plain.tokens_eq {v : Value} (hv : v.Plain) : v.tokens = 0 := by
  cases hv <;> rfl

theorem PartOf.tokens_eq {u v : Value} (hu : u.PartOf v) : u.tokens = 0 := by
  cases hu <;> rfl

end Value

/-- A stream that stays in its slot. -/
theorem Borrows.moves {id : SlotId} {ds es : List Deed} {B : Multiset Token} (h : Borrows id ds)
    (hes : Moves {full id} es B) : Moves {full id} (ds ++ es) B := by
  cases h with
  | nothing => exact hes
  | stream stream => exact .step' (.took id stream) (.step' (.restored id stream) hes)

/-- Calls of leaves move the tokens of their values. -/
theorem Leaf.Did.moves {l : Leaf} {v w : Value} {ds : List Deed} (hdid : l.Did v w ds) :
    Moves v.tokens ds w.tokens := by
  cases hdid with
  | passed => exact .refl _
  | refused => exact v.moves_forget
  | @unavailable _ c => exact .step' (.tookNothing c.slot 0) (.refl 0)
  | domainName => exact .refl 0
  | makeEndpoints => exact .refl 0
  | lookupFailed => exact .traced _ (.saved _ (.refl 0))
  | lookedUp => exact .traced _ (.saved _ (.refl 0))
  | connectFailed => exact .traced _ (.saved _ (.refl 0))
  | @connected _ _ stream slot =>
    refine .traced _ (.saved _ (.step' (.established stream) ?_))
    exact .step' (.held stream slot) (.refl {full slot})
  | @tlsFailed _ _ c stream =>
    refine .step' (.took c.slot stream) ?_
    refine .step (.lost stream) (F := {empty c.slot}) (add_comm _ _) (.saved _ ?_)
    exact .done (add_comm _ _) fun t ht => Multiset.mem_singleton.1 ht ▸ rfl
  | @tlsDone _ _ c stream _ slot =>
    refine .step' (.took c.slot stream) (.saved _ ?_)
    refine .step (.held { stream with transport := .tls } slot) (F := {empty c.slot})
      (add_comm _ _) ?_
    exact .done rfl fun t ht => Multiset.mem_singleton.1 ht ▸ rfl
  | quicFailed => exact .traced _ (.saved _ (.refl 0))
  | @quicDone _ _ _ _ stream _ slot =>
    refine .traced _ (.saved _ (.step' (.established stream) ?_))
    exact .step' (.held stream slot) (.refl {full slot})
  | @requestFailed _ c _ _ _ hds => exact hds.moves (.saved _ (Value.connection c).moves_forget)
  | @requested _ c _ _ _ hds => exact hds.moves (.saved _ (Value.connection c).moves_forget)

/-- The tokens of the value that a course starts from end up in the value that it comes to. -/
theorem Course.invariant_moves :
    Course.Invariant fun v c => Moves v.tokens (deeds c.history) c.output.tokens where
  still v w hw := by
    rcases hw with rfl | hw
    · exact .refl _
    · rw [show (Course.still w).output.tokens = 0 from hw.tokens_eq]
      exact v.moves_forget
  call _ _ _ _ _ hdid := hdid.moves
  followedBy v a b ha hb := by
    rw [Course.followedBy, deeds_append]
    exact ha.trans hb
  gathers v reduce bs c hbs hplain hc := by
    obtain ⟨vs, -, houtput, hhistory, -⟩ := hc
    -- A connection that a branch is left with stays in its slot, and nobody knows of it.
    have hbranches : ∀ ds ∈ (bs.map Course.history).map deeds, Moves 0 ds 0 := by
      intro ds hds
      rw [List.map_map] at hds
      obtain ⟨b, hb, rfl⟩ := List.mem_map.1 hds
      obtain ⟨u, hu, hmoves⟩ := hbs b hb
      rw [hu.tokens_eq] at hmoves
      simpa using hmoves.trans b.output.moves_forget
    have hall : Moves 0 (deeds c.history) 0 :=
      .interleaves hbranches (hhistory.filterMap Action.deed?)
    rw [houtput, (hplain vs).tokens_eq]
    simpa using v.moves_forget.trans hall

/-! ## Connections that were made -/

namespace Observations

/-- How many handshakes succeeded, those of TCP among them. -/
def established (o : Observations) : Nat :=
  (o.connects.filter (·.failure = none)).length
    + (o.tlsHandshakes.filter (·.failure = none)).length
    + (o.quicHandshakes.filter (·.failure = none)).length

theorem additive_established : Additive established where
  empty := rfl
  append a b := by
    simp only [established, connects_append, tlsHandshakes_append, quicHandshakes_append,
      List.filter_append, List.length_append]
    omega

end Observations

/-- A call makes a slot if it saves a record of a handshake that succeeded, and nothing else is to
    be closed. -/
theorem Leaf.Did.established {l : Leaf} {v w : Value} {ds : List Deed} (hdid : l.Did v w ds) :
    (Observations.reduce (saves ds)).established = (slotsMade ds).length ∧
      ∀ c, .tracked c ∉ ds := by
  cases hdid with
  | requestFailed hds => exact ⟨by cases hds <;> rfl, by cases hds <;> simp⟩
  | requested hds => exact ⟨by cases hds <;> rfl, by cases hds <;> simp⟩
  | _ => exact ⟨rfl, by simp⟩

/-! ## Evaluations -/

/-- What calls say whose stream is gone. -/
def goneReasons : List String :=
  ["tls_handshake: TCP connection is no longer available",
    "http_transaction: connection is no longer available"]

/-- The call does not say that the stream of its connection is gone, unless it passes that on. -/
def Call.FindsStream (c : Call) : Prop :=
  c.input.isSentinel = false → ∀ e, c.output = .exception e → e.reason ∉ goneReasons

/-- The reasons of a leaf start with its name. -/
theorem Leaf.reason_not_mem {l : Leaf} {reason : String} (h : reason ∉ unavailableTexts) :
    l.name ++ ": " ++ reason ∉ goneReasons := by
  intro hmem
  rcases List.mem_cons.1 hmem with heq | hmem
  · cases l with
    | tlsHandshake options =>
      have hreason : reason = "TCP connection is no longer available" :=
        String.toList_inj.1 (by simpa [name, ← String.toList_inj] using heq)
      exact h (hreason ▸ by decide)
    | _ => simp [name, ← String.toList_inj] at heq
  · have heq := List.mem_singleton.1 hmem
    cases l with
    | httpTransaction a =>
      have hreason : reason = "connection is no longer available" :=
        String.toList_inj.1 (by simpa [name, ← String.toList_inj] using heq)
      exact h (hreason ▸ by decide)
    | _ => simp [name, ← String.toList_inj] at heq

/-- A call says that its stream is gone only if it is. -/
theorem Leaf.Did.reason_not_mem {l : Leaf} {v : Value} {e : Exception} {ds : List Deed}
    (hdid : l.Did v (.exception e) ds) (htook : ∀ id, .took id none ∉ ds)
    (hv : v.isSentinel = false) : e.reason ∉ goneReasons := by
  cases hdid with
  | passed hpassed => rw [hv] at hpassed; cases hpassed
  | refused _ hreason => exact l.reason_not_mem hreason
  | unavailable => exact absurd (List.mem_singleton_self _) (htook _)

namespace Operation

variable {n : Node} {op : Operation} {s : Scope} {h : List Action} {v : Value} {q : Activity}

/-- At every moment of an evaluation each stream has one owner, and no stream was looked for in
    vain. -/
theorem ownedOnce_of_run (hop : (Registry.standard.compile n).result = .ok op)
    (hrun : (op.evaluation s).Run h q) (hgives : ({} : Session).Gives h) :
    OwnedOnce (({} : Session).after h).slots (({} : Session).after h).streams
        (Unslotted.of (deeds h)) ∧ ∀ id, .took id none ∉ deeds h := by
  -- Only runs that came to an end consist of calls, so let this one come to an end.
  obtain ⟨rest, v, hrest, -⟩ := Activity.exists_run_done q {}
  obtain ⟨calls, heval⟩ := exists_evaluates (hrun.trans hrest)
  obtain ⟨k, hk, hmoves⟩ := heval.good hop Course.invariant_moves
  rw [hk, deeds_append] at hmoves
  obtain ⟨T, hmoves⟩ := hmoves.exists_prefix
  obtain ⟨hcustody, htook⟩ := hmoves.custody .fresh hgives
  exact ⟨hcustody.ownedOnce, htook⟩

namespace Evaluates

variable {calls : List Call} (heval : op.Evaluates s v h calls)
  (hop : (Registry.standard.compile n).result = .ok op)

include heval hop

theorem findsStream (htook : ∀ id, .took id none ∉ deeds h) {call : Call} (hcall : call ∈ calls) :
    call.FindsStream := by
  obtain ⟨l, hdid⟩ := heval.did hop hcall
  intro hv e he
  refine (he ▸ hdid).reason_not_mem (fun id hmem => htook id ?_) hv
  exact (heval.mem_deeds_iff hop).2 ⟨call, hcall, hmem⟩

/-- There is one slot for every handshake that succeeded. -/
theorem slots_length :
    (({} : Session).after h).slots.length = (recorded h).established := by
  have hcalls : calls.map (fun call => (recorded call.history).established)
      = calls.map fun call => (slotsMade (deeds call.history)).length :=
    List.map_congr_left fun call hcall => by
      obtain ⟨l, hdid⟩ := heval.did hop hcall
      exact hdid.established.1
  rw [Session.slots_after, heval.recorded_eq hop Observations.additive_established, hcalls,
    heval.tally_eq hop tally_slotsMade]
  exact Nat.zero_add _

theorem settled :
    ((({} : Session).after h).report v).2.Settled ∧
      ((({} : Session).after h).report v).2.slots.length
        = ((({} : Session).after h).report v).1.observations.established := by
  have htracked (c : Closer) : .tracked c ∉ deeds h := by
    intro hmem
    obtain ⟨call, hcall, hmem⟩ := (heval.mem_deeds_iff hop).1 hmem
    obtain ⟨l, hdid⟩ := heval.did hop hcall
    exact hdid.established.2 c hmem
  have hclosings : (({} : Session).after h).closings = [] :=
    Session.holds_after (P := fun σ => σ.closings = []) (fun _ _ hσ => hσ)
      (fun σ d _ hσ => (σ.closings_deed d).trans hσ) rfl
  obtain ⟨hsettled, hlength⟩ :=
    Session.settled_report hclosings (Session.closers_after htracked rfl) v
  rw [Session.observations_report_fresh]
  exact ⟨hsettled, hlength.trans (heval.slots_length hop)⟩

end Evaluates

end Operation

/-- At every moment of an evaluation each stream has one owner, a slot or the operation that has it
    in hand, if it was not lost in a handshake. No stream is looked for in vain, and no call says
    that one is gone. At the end there are as many slots as handshakes in the report that succeeded,
    each of them is closed and was closed once, and nothing is tracked any more. -/
theorem Report.connections_accounted {n : Node} {op : Operation}
    (hop : (Registry.standard.compile n).result = .ok op) (s : Scope) :
    (∀ (h : List Action) (q : Activity), (op.evaluation s).Run h q → ({} : Session).Gives h →
      OwnedOnce (({} : Session).after h).slots (({} : Session).after h).streams
        (Unslotted.of (deeds h)) ∧ ∀ id, .took id none ∉ deeds h) ∧
    (∀ (h : List Action) (v : Value), (op.evaluation s).Run h (.done v) → ({} : Session).Gives h →
      (∃ calls, op.Evaluates s v h calls ∧ ∀ call ∈ calls, call.FindsStream) ∧
      ∀ report τ, (({} : Session).after h).report v = (report, τ) →
        τ.Settled ∧ τ.slots.length = report.observations.established) ∧
    ∀ (e : Surroundings) (moments : Nat) (w w' : World) (report : Report), w.session = {} →
      e.evaluate moments s op w = some (report, w') →
        w'.session.Settled ∧ w'.session.slots.length = report.observations.established := by
  have hcomplete (h : List Action) (v : Value) (hrun : (op.evaluation s).Run h (.done v))
      (hgives : ({} : Session).Gives h) :
      (∃ calls, op.Evaluates s v h calls ∧ ∀ call ∈ calls, call.FindsStream) ∧
      ∀ report τ, (({} : Session).after h).report v = (report, τ) →
        τ.Settled ∧ τ.slots.length = report.observations.established := by
    obtain ⟨calls, heval⟩ := Operation.exists_evaluates hrun
    obtain ⟨-, htook⟩ := Operation.ownedOnce_of_run hop hrun hgives
    refine ⟨⟨calls, heval, fun call => heval.findsStream hop htook⟩, fun report τ hreport => ?_⟩
    have hsettled := heval.settled hop
    rwa [hreport] at hsettled
  refine ⟨fun h q => Operation.ownedOnce_of_run hop, hcomplete,
    fun e moments w w' report hw he => ?_⟩
  obtain ⟨h, v, hrun, hgives, hreport⟩ := Surroundings.exists_run_of_evaluate he
  rw [hw] at hgives hreport
  exact (hcomplete h v hrun hgives).2 report w'.session hreport

/-- A server that hangs up after the handshake: one slot was made for TCP and one for TLS. -/
theorem Report.connections_accounted_fetch :
    ∃ n, (Registry.standard.compile n).result = .ok Construction.fetchOperation ∧
      ∃ report w', ({} : World).session = {} ∧
        Surroundings.cutOff.evaluate 9 { context := .root 0 } Construction.fetchOperation {}
          = some (report, w') ∧
        report.observations.established = 2 ∧ w'.session.Settled ∧ w'.session.slots.length = 2 := by
  obtain ⟨n, hop⟩ := Construction.compiles_fetch
  have hcount : ((Surroundings.cutOff.evaluate 9 { context := .root 0 } Construction.fetchOperation
      {}).map fun r => r.1.observations.established) = some 2 := by decide +kernel
  obtain ⟨⟨report, w'⟩, hreport, htwo⟩ := Option.map_eq_some_iff.1 hcount
  obtain ⟨-, -, hall⟩ := connections_accounted hop { context := .root 0 }
  obtain ⟨hsettled, hlength⟩ := hall _ _ {} w' report rfl hreport
  exact ⟨n, hop, report, w', rfl, hreport, htwo, hsettled, hlength.trans htwo⟩

end NetProbe
