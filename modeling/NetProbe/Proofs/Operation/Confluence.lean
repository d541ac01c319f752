import NetProbe.Proofs.Operation.Calls
import NetProbe.Proofs.Operation.Passthrough
import NetProbe.Proofs.Operation.Reductions
import NetProbe.Proofs.Run.Records
import NetProbe.Proofs.Run.Scheduler
set_option autoImplicit false

/-! # The order of branches does not matter

When the outcome of every call of a leaf depends on its input alone, an operation comes to the same
in whatever order its branches take turns and arrive: `Operation.schedule_independent`. Only which
of several exceptions it comes to may differ, and so `Value.essence` forgets their reasons, besides
the numbers of traces and slots.

The proof is an induction over the program, on two courses that it takes. Each constructor of
operations is `Confluent` if the operations in it are: in a sequence the second operation starts
from values with the same essence, and the values of branches, which arrive in different orders, are
reduced to values with the same essence. -/

namespace NetProbe

/-! ## What schedules cannot change -/

namespace Value

/-- The value without the numbers of its trace and its slot. -/
def forget : Value → Value
  | connection c => .connection { c with trace := 0, slot := 0 }
  | v => v

/-- The value without these numbers and without the reason of an exception. -/
def essence : Value → Value
  | exception _ => .exception ⟨""⟩
  | v => v.forget

theorem essence_of_forget {v w : Value} (h : v.forget = w.forget) : v.essence = w.essence := by
  cases v <;> cases w <;> simp_all [forget, essence]

theorem forget_of_essence {v w : Value} (h : v.essence = w.essence) (hv : v.exception? = none) :
    v.forget = w.forget := by
  cases v <;> cases w <;> simp_all [forget, essence, exception?]

@[simp] theorem isSentinel_essence (v : Value) : v.essence.isSentinel = v.isSentinel := by
  cases v <;> rfl

theorem isSentinel_eq_of_essence {v w : Value} (h : v.essence = w.essence) :
    v.isSentinel = w.isSentinel := by
  rw [← v.isSentinel_essence, h, w.isSentinel_essence]

@[simp] theorem isSome_exception?_essence (v : Value) :
    (v.essence.exception?).isSome = (v.exception?).isSome := by
  cases v <;> rfl

@[simp] theorem kind_essence (v : Value) : v.essence.kind = v.kind := by
  cases v <;> rfl

@[simp] theorem void?_essence (v : Value) : v.essence.void? = v.void? := by
  cases v <;> rfl

@[simp] theorem lookup?_essence (v : Value) : v.essence.lookup? = v.lookup? := by
  cases v <;> rfl

@[simp] theorem resolved?_essence (v : Value) : v.essence.resolved? = v.resolved? := by
  cases v <;> rfl

@[simp] theorem endpoints?_essence (v : Value) : v.essence.endpoints? = v.endpoints? := by
  cases v <;> rfl

end Value

/-! ## Reducing values that arrive in any order -/

/-- Whether the reduction of some values has an essence that depends on theirs alone, in any
    order. -/
def Orderless (reduce : List Value → Value) : Prop :=
  ∀ vs ws, (vs.map Value.essence).Perm (ws.map Value.essence) →
    (reduce vs).essence = (reduce ws).essence

/-- Whether there is an exception among values. -/
theorem isSome_firstException? (vs : List Value) :
    (firstException? vs).isSome = (vs.map Value.essence).any fun v => (v.exception?).isSome := by
  rw [firstException?, List.any_map]
  induction vs with
  | nil => rfl
  | cons v vs ih =>
    rw [List.findSome?_cons, List.any_cons, ← ih]
    cases h : v.exception? <;> simp [h]

theorem isSome_firstException?_of_perm {vs ws : List Value}
    (h : (vs.map Value.essence).Perm (ws.map Value.essence)) :
    (firstException? vs).isSome = (firstException? ws).isSome := by
  rw [isSome_firstException?, isSome_firstException?]
  exact h.any_eq

theorem orderless_exceptionOrVoid : Orderless exceptionOrVoid := by
  intro vs ws h
  have hsome := isSome_firstException?_of_perm h
  rw [exceptionOrVoid, exceptionOrVoid]
  cases hvs : firstException? vs <;> cases hws : firstException? ws <;>
    simp_all [Value.essence, Value.forget]

theorem resolvedAddresses_essence (vs : List Value) :
    resolvedAddresses (vs.map Value.essence) = resolvedAddresses vs := by
  simp [resolvedAddresses, List.filterMap_map]

theorem orderless_mergeLookups (domain : String) : Orderless (mergeLookups domain) := by
  intro vs ws h
  have hsome := isSome_firstException?_of_perm h
  have haddresses := ascending_resolvedAddresses_of_perm h
  rw [resolvedAddresses_essence, resolvedAddresses_essence] at haddresses
  rw [mergeLookups, mergeLookups, haddresses]
  cases hvs : firstException? vs <;> cases hws : firstException? ws <;>
    simp_all [Value.essence, Value.forget]

/-! ## Courses that agree -/

/-- Whether the outcome of every call depends on its input alone: calls that one leaf of the program
    makes on the same input come to the same and save the same records, but for the numbers of
    traces and slots. -/
def Determined (calls : List Call) : Prop :=
  ∀ c ∈ calls, ∀ d ∈ calls, c.place = d.place → c.input.forget = d.input.forget →
    c.output.forget = d.output.forget ∧ historyRecords c.history = historyRecords d.history

theorem Determined.mono {calls some : List Call} (h : Determined calls)
    (hsub : ∀ c ∈ some, c ∈ calls) : Determined some :=
  fun c hc d hd => h c (hsub c hc) d (hsub d hd)

/-- The calls of two courses in two parts each. -/
theorem Determined.of_append {a b c d : List Call} (h : Determined ((a ++ b) ++ (c ++ d))) :
    Determined (a ++ c) ∧ Determined (b ++ d) := by
  refine ⟨h.mono fun x hx => ?_, h.mono fun x hx => ?_⟩ <;>
    simp only [List.mem_append] at hx ⊢ <;> grind

/-- Whether two courses come to the same and save the same records. -/
structure Course.Agrees (c d : Course) : Prop where
  output : c.output.essence = d.output.essence
  records : historyRecords c.history = historyRecords d.history

namespace Course

theorem agrees_still {v w : Value} (h : v.essence = w.essence) :
    (still v).Agrees (still w) := ⟨h, rfl⟩

theorem Agrees.followedBy {a b c d : Course} (h : a.Agrees c) (h' : b.Agrees d) :
    (a.followedBy b).Agrees (c.followedBy d) where
  output := h'.output
  records := by
    rw [Course.followedBy, Course.followedBy, historyRecords_append, historyRecords_append,
      h.records, h'.records]

theorem Gathers.calls_eq {reduce : List Value → Value} {bs : List Course} {c : Course}
    (h : c.Gathers reduce bs) : c.calls = bs.flatMap calls := by
  obtain ⟨_, _, _, _, hcalls⟩ := h
  exact hcalls

/-- Branches that agree one by one, in any order. -/
theorem agrees_of_gathers {reduce : List Value → Value} (hreduce : Orderless reduce)
    {bs ds : List Course} (hbs : List.Forall₂ Agrees bs ds) {c d : Course}
    (hc : c.Gathers reduce bs) (hd : d.Gathers reduce ds) : c.Agrees d := by
  obtain ⟨vs, hvs, hcout, hchistory, -⟩ := hc
  obtain ⟨ws, hws, hdout, hdhistory, -⟩ := hd
  constructor
  · have hsame : (bs.map output).map Value.essence = (ds.map output).map Value.essence := by
      rw [List.map_map, List.map_map, ← List.forall₂_eq_eq_eq, List.forall₂_map_left_iff,
        List.forall₂_map_right_iff]
      exact hbs.imp fun _ _ h => h.output
    rw [hcout, hdout]
    refine hreduce vs ws ((hvs.map _).trans ?_)
    rw [hsame]
    exact (hws.map _).symm
  · rw [historyRecords_of_perm hchistory.perm, historyRecords_of_perm hdhistory.perm]
    refine historyRecords_flatten ?_
    rw [List.forall₂_map_left_iff, List.forall₂_map_right_iff]
    exact hbs.imp fun _ _ h => h.records

/-- Calls of a group on values with the same essence. -/
theorem agrees_of_called {α : Type} {name : String} {accept : Value → Option α}
    {P Q : α → Course → Prop} {v w : Value} {c d : Course} (hvw : v.essence = w.essence)
    (haccept : ∀ u : Value, accept u.essence = accept u)
    (hc : Called name accept P v c) (hd : Called name accept Q w d)
    (hcall : ∀ a, P a c → Q a d → c.Agrees d) : c.Agrees d := by
  have hsentinel : v.isSentinel = w.isSentinel := Value.isSentinel_eq_of_essence hvw
  have hkind : v.kind = w.kind := by rw [← v.kind_essence, hvw, w.kind_essence]
  have hsame : accept v = accept w := by rw [← haccept v, hvw, haccept w]
  rw [Called] at hc hd
  rw [hsentinel, hsame] at hc
  split at hc
  · next h =>
    rw [if_pos h] at hd
    rw [hc, hd]
    exact agrees_still hvw
  · next h =>
    rw [if_neg h] at hd
    cases ha : accept w with
    | some a =>
      rw [ha] at hc hd
      exact hcall a hc hd
    | none =>
      rw [ha] at hc hd
      rw [hc, hd, Value.unexpected, Value.unexpected, hkind]
      exact agrees_still rfl

end Course

/-! ## Operations -/

namespace Operation

/-- Whether any two courses of the operation agree on inputs with the same essence. -/
def Confluent (op : Operation) : Prop :=
  ∀ (s : Scope) (place : List Nat) (v w : Value) (c d : Course), v.essence = w.essence →
    op.MayTake s place v c → op.MayTake s place w d → Determined (c.calls ++ d.calls) → c.Agrees d

variable {ops : List Operation}

theorem agrees_sequence (h : ∀ op ∈ ops, op.Confluent) {s : Scope} {place : List Nat} {i : Nat}
    {v w : Value} {c d : Course} (hvw : v.essence = w.essence)
    (hc : SequenceMayTake s place i ops v c) (hd : SequenceMayTake s place i ops w d)
    (hcalls : Determined (c.calls ++ d.calls)) : c.Agrees d := by
  induction ops generalizing i v w c d with
  | nil =>
    rw [SequenceMayTake] at hc hd
    rw [hc, hd]
    exact Course.agrees_still hvw
  | cons op ops ih =>
    rw [SequenceMayTake] at hc hd
    obtain ⟨a, b, ha, hb, rfl⟩ := hc
    obtain ⟨a', b', ha', hb', rfl⟩ := hd
    obtain ⟨hcalls, hcalls'⟩ := hcalls.of_append
    have hfirst : a.Agrees a' := h op List.mem_cons_self s _ v w a a' hvw ha ha' hcalls
    have hrest : ∀ o ∈ ops, o.Confluent := fun o ho => h o (List.mem_cons_of_mem op ho)
    exact hfirst.followedBy (ih hrest hfirst.output hb hb' hcalls')

theorem agrees_branches (h : ∀ op ∈ ops, op.Confluent) {s : Scope} {place : List Nat} {i : Nat}
    {v : Value} {bs ds : List Course} (hbs : BranchesMayTake s place i ops v bs)
    (hds : BranchesMayTake s place i ops v ds)
    (hcalls : Determined (bs.flatMap Course.calls ++ ds.flatMap Course.calls)) :
    List.Forall₂ Course.Agrees bs ds := by
  induction ops generalizing i bs ds with
  | nil =>
    rw [BranchesMayTake] at hbs hds
    rw [hbs, hds]
    exact .nil
  | cons op ops ih =>
    rw [BranchesMayTake] at hbs hds
    obtain ⟨b, bs, hb, hbs, rfl⟩ := hbs
    obtain ⟨d, ds, hd, hds, rfl⟩ := hds
    rw [List.flatMap_cons, List.flatMap_cons] at hcalls
    obtain ⟨hcalls, hcalls'⟩ := hcalls.of_append
    have hrest : ∀ o ∈ ops, o.Confluent := fun o ho => h o (List.mem_cons_of_mem op ho)
    exact .cons (h op List.mem_cons_self s _ v v b d rfl hb hd hcalls) (ih hrest hbs hds hcalls')

/-- The courses of a sequence on each of some endpoints. -/
theorem agrees_endpoints (h : ∀ op ∈ ops, op.Confluent) {s : Scope} {place : List Nat}
    {es : List Endpoint} {bs ds : List Course}
    (hbs : List.Forall₂ (fun e b => SequenceMayTake s place 0 ops (.endpoint e) b) es bs)
    (hds : List.Forall₂ (fun e d => SequenceMayTake s place 0 ops (.endpoint e) d) es ds)
    (hcalls : Determined (bs.flatMap Course.calls ++ ds.flatMap Course.calls)) :
    List.Forall₂ Course.Agrees bs ds := by
  induction hbs generalizing ds with
  | nil =>
    cases hds
    exact .nil
  | cons hb _ ih =>
    cases hds with
    | cons hd hds =>
      rw [List.flatMap_cons, List.flatMap_cons] at hcalls
      obtain ⟨hcalls, hcalls'⟩ := hcalls.of_append
      exact .cons (agrees_sequence h rfl hb hd hcalls) (ih hds hcalls')

/-- A group of confluent operations whose values are reduced in any order. -/
theorem agrees_group {reduce : List Value → Value} (hreduce : Orderless reduce)
    (h : ∀ op ∈ ops, op.Confluent) {s : Scope} {place : List Nat} {v : Value} {c d : Course}
    (hc : ∃ bs, BranchesMayTake s place 0 ops v bs ∧ c.Gathers reduce bs)
    (hd : ∃ ds, BranchesMayTake s place 0 ops v ds ∧ d.Gathers reduce ds)
    (hcalls : Determined (c.calls ++ d.calls)) : c.Agrees d := by
  obtain ⟨bs, hbs, hc⟩ := hc
  obtain ⟨ds, hds, hd⟩ := hd
  rw [hc.calls_eq, hd.calls_eq] at hcalls
  exact Course.agrees_of_gathers hreduce (agrees_branches h hbs hds hcalls) hc hd

theorem confluent_leaf (l : Leaf) : (leaf l).Confluent := by
  intro s place v w c d hvw hc hd hcalls
  rw [MayTake] at hc hd
  obtain ⟨hctraces, hccalls⟩ := hc
  obtain ⟨hdtraces, hdcalls⟩ := hd
  have hsentinel : v.isSentinel = w.isSentinel := Value.isSentinel_eq_of_essence hvw
  by_cases hv : v.isSentinel = true
  · -- Exceptions may have come with different reasons, so the calls need not be on the same input.
    rw [l.apply_of_isSentinel s hv] at hctraces
    rw [l.apply_of_isSentinel s (hsentinel ▸ hv)] at hdtraces
    obtain ⟨hcoutput, hchistory⟩ := hctraces.of_done
    obtain ⟨hdoutput, hdhistory⟩ := hdtraces.of_done
    constructor
    · rw [hcoutput, hdoutput]
      exact hvw
    · rw [hchistory, hdhistory]
  · have hexception : v.exception? = none := by
      cases v <;> first | rfl | exact absurd rfl hv
    have hinput : v.forget = w.forget := Value.forget_of_essence hvw hexception
    rw [hccalls, hdcalls] at hcalls
    have hsame := hcalls _ (List.mem_append_left _ List.mem_cons_self) _
      (List.mem_append_right _ List.mem_cons_self) rfl hinput
    exact ⟨Value.essence_of_forget hsame.1, hsame.2⟩

theorem hereditary_confluent : Hereditary Confluent where
  identity := by
    intro s place v w c d hvw hc hd _
    rw [MayTake] at hc hd
    rw [hc, hd]
    exact Course.agrees_still hvw
  discard := by
    intro s place v w c d hvw hc hd _
    rw [MayTake] at hc hd
    rw [hc, hd]
    refine Course.agrees_still ?_
    rw [Value.isSentinel_eq_of_essence hvw]
    split
    · exact hvw
    · rfl
  leaf := confluent_leaf
  compose := by
    intro ops h s place v w c d hvw hc hd hcalls
    rw [MayTake] at hc hd
    exact agrees_sequence h hvw hc hd hcalls
  lookupParallel := by
    intro ops h s place v w c d hvw hc hd hcalls
    rw [MayTake] at hc hd
    exact Course.agrees_of_called hvw Value.lookup?_essence hc hd fun domain hc hd =>
      agrees_group (orderless_mergeLookups domain) h hc hd hcalls
  measureDomains := by
    intro ops h s place v w c d hvw hc hd hcalls
    rw [MayTake] at hc hd
    exact Course.agrees_of_called hvw Value.void?_essence hc hd fun _ hc hd =>
      agrees_group orderless_exceptionOrVoid h hc hd hcalls
  measureEndpoints := by
    intro ops h s place v w c d hvw hc hd hcalls
    rw [MayTake] at hc hd
    exact Course.agrees_of_called hvw Value.resolved?_essence hc hd fun r hc hd =>
      agrees_group orderless_exceptionOrVoid h hc hd hcalls
  endpointPipeline := by
    intro ops h s place v w c d hvw hc hd hcalls
    rw [MayTake] at hc hd
    refine Course.agrees_of_called hvw Value.endpoints?_essence hc hd fun es hc hd => ?_
    obtain ⟨bs, hbs, hc⟩ := hc
    obtain ⟨ds, hds, hd⟩ := hd
    rw [hc.calls_eq, hd.calls_eq] at hcalls
    have hagree : List.Forall₂ Course.Agrees bs ds := agrees_endpoints h hbs hds hcalls
    exact Course.agrees_of_gathers orderless_exceptionOrVoid hagree hc hd

/-- Every run of an operation that the standard registry compiles takes a course of it, and so does
    whatever the scheduler makes of it. If the outcome of the calls in two courses on one value
    depends on their input alone, then both come to the same, but for the numbers of traces and
    slots, or both come to an exception; and they leave the same records in the session. -/
theorem schedule_independent {n : Node} {op : Operation}
    (hop : (Registry.standard.compile n).result = .ok op) (s : Scope) (v : Value) :
    (∀ (h : List Action) (w : Value), (op.apply s v).Run h (.done w) →
        ∃ calls, op.MayTake s [] v ⟨w, h, calls⟩) ∧
      (∀ (e : Surroundings) (moments : Nat) (world world' : World) (w : Value),
        e.run moments (op.apply s v) world = some (w, world') →
          ∃ h, (op.apply s v).Run h (.done w) ∧ world.session.after h = world'.session) ∧
      ∀ c d : Course, op.MayTake s [] v c → op.MayTake s [] v d →
        Determined (c.calls ++ d.calls) →
          (c.output.exception? = none → c.output.forget = d.output.forget) ∧
          (c.output.exception?).isSome = (d.output.exception?).isSome ∧
          ∀ σ : Session, (σ.after c.history).records = (σ.after d.history).records := by
  refine ⟨fun h w hrun => exists_course hrun [], fun e moments world world' w hrun => ?_,
    fun c d hc hd hcalls => ?_⟩
  · obtain ⟨h, hrun, -, hafter⟩ := e.reaches_of_run hrun
    exact ⟨h, hrun, hafter⟩
  · have hconfluent : op.Confluent := Registry.compile_standard_induction hereditary_confluent hop
    obtain ⟨houtput, hrecords⟩ := hconfluent s [] v v c d rfl hc hd hcalls
    refine ⟨Value.forget_of_essence houtput, ?_, fun σ => ?_⟩
    · rw [← c.output.isSome_exception?_essence, houtput, d.output.isSome_exception?_essence]
    · rw [σ.records_after, σ.records_after, hrecords]

end Operation

/-! ### Two lookups in either order -/

namespace TwoLookups

def first : Ip := .v4 ⟨0xc0000201⟩

def second : Ip := .v4 ⟨0xc0000202⟩

/-- The program of two lookups that know an address each. -/
def node : Node :=
  let lookup (address : String) : Node := {
    func := "dns_lookup_static"
    arguments := StaticLookupArguments.schema.encode { addresses := [address] } }
  .new "dns_lookup_parallel" [lookup "192.0.2.1", lookup "192.0.2.2"]

def operation : Operation :=
  .lookupParallel [.leaf (.lookupStatic [first]), .leaf (.lookupStatic [second])]

def scope : Scope where
  context := .root 0

/-- What a lookup does that knows one address. -/
def actions (trace : TraceId) (ip : Ip) : List Action :=
  let message := "DNSLookup[static] " ++ "example.com"
  [⟨.session .newTrace, trace⟩, ⟨.session (.log (.started trace message)), ()⟩,
    ⟨.session (.save { lookups := [StaticLookup.record trace "example.com" [ip]] }), ()⟩,
    ⟨.session (.log (.stopped trace message none)), ()⟩]

def call (place : List Nat) (trace : TraceId) (ip : Ip) : Call where
  place := place
  input := .lookup "example.com"
  output := .resolved { domain := "example.com", addresses := [ip] }
  history := actions trace ip

/-- The course in which the lookups have these traces. -/
def course (a b : TraceId) (history : List Action) : Course where
  output := .resolved { domain := "example.com", addresses := [first, second] }
  history := history
  calls := [call [0] a first, call [1] b second]

theorem traces_lookupStatic (trace : TraceId) (ip : Ip) :
    Activity.Traces ((Leaf.lookupStatic [ip]).apply scope (.lookup "example.com"))
      (.resolved { domain := "example.com", addresses := [ip] }) (actions trace ip) :=
  .perform (.perform (.perform (.perform (.done _))))

theorem mayTake_course {a b : TraceId} {h : List Action}
    (hh : Interleaves [actions a first, actions b second] h) :
    operation.MayTake scope [] (.lookup "example.com") (course a b h) := by
  have branch (place : List Nat) (trace : TraceId) (ip : Ip) :
      (Operation.leaf (.lookupStatic [ip])).MayTake scope place (.lookup "example.com")
        ⟨(call place trace ip).output, actions trace ip, [call place trace ip]⟩ := by
    rw [Operation.MayTake]
    exact ⟨traces_lookupStatic trace ip, rfl⟩
  have hbranches : Operation.BranchesMayTake scope [] 0
      [.leaf (.lookupStatic [first]), .leaf (.lookupStatic [second])] (.lookup "example.com")
      [⟨(call [0] a first).output, actions a first, [call [0] a first]⟩,
        ⟨(call [1] b second).output, actions b second, [call [1] b second]⟩] := by
    simp only [Operation.BranchesMayTake]
    exact ⟨_, _, branch [0] a first, ⟨_, _, branch [1] b second, rfl, rfl⟩, rfl⟩
  rw [operation, Operation.MayTake]
  exact ⟨_, hbranches, _, .refl _, rfl, hh, rfl⟩

theorem determined_calls (a b c d : TraceId) :
    Determined ([call [0] a first, call [1] b second] ++
      [call [0] c first, call [1] d second]) := by
  intro x hx y hy hplace _
  simp only [List.cons_append, List.nil_append, List.mem_cons, List.not_mem_nil, or_false] at hx hy
  -- Calls at one place differ in their traces only, and records are compared without these.
  rcases hx with rfl | rfl | rfl | rfl <;> rcases hy with rfl | rfl | rfl | rfl <;>
    first | exact ⟨rfl, rfl⟩ | cases hplace

/-- One lookup is through before the other starts. -/
def firstFirst : Course :=
  course 1 2 (actions 1 first ++ actions 2 second)

def secondFirst : Course :=
  course 2 1 (actions 1 second ++ actions 2 first)

end TwoLookups

open TwoLookups in
/-- Two lookups one after the other, in either order. -/
theorem Operation.schedule_independent_twoLookups :
    (Registry.standard.compile node).result = .ok operation ∧
      operation.MayTake scope [] (.lookup "example.com") firstFirst ∧
      operation.MayTake scope [] (.lookup "example.com") secondFirst ∧
      Determined (firstFirst.calls ++ secondFirst.calls) ∧
      (({} : Session).after firstFirst.history).records =
        (({} : Session).after secondFirst.history).records := by
  have hop : (Registry.standard.compile node).result = .ok operation := rfl
  have hc : operation.MayTake scope [] (.lookup "example.com") firstFirst :=
    mayTake_course (.cons (.cons .nil (.left (.left (.left (.left .nil)))))
      (.left (.left (.left (.left (.nil_left _))))))
  have hd : operation.MayTake scope [] (.lookup "example.com") secondFirst :=
    mayTake_course (.cons (.cons .nil (.left (.left (.left (.left .nil)))))
      (.right (.right (.right (.right (.left (.left (.left (.left .nil)))))))))
  have hcalls : Determined (firstFirst.calls ++ secondFirst.calls) := determined_calls 1 2 2 1
  have h := (schedule_independent hop scope (.lookup "example.com")).2.2 _ _ hc hd hcalls
  exact ⟨hop, hc, hd, hcalls, h.2.2 {}⟩

end NetProbe
