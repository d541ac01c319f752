import Mathlib.Data.List.Perm.Basic
import NetProbe.Proofs.Operation.Calls
import NetProbe.Proofs.Operation.Leaves
import NetProbe.Proofs.Registry.Induction
set_option autoImplicit false

/-! # Invariants of courses

A relation between a value and the courses that programs take on it is an `Invariant` if calls of
leaves have it, sequences and fan-outs keep it, and it holds where nothing is done. Then it holds of
every course of a compiled program: `Operation.good_of_mayTake`. It is enough to know of a fan-out
what its branches start from, `Value.PartOf`, and that the value it comes to is a plain one. -/

namespace NetProbe

/-! ## Values of fan-outs -/

namespace Value

/-- The values that operations other than leaves make. -/
inductive Plain : Value → Prop
  | void : Plain .void
  | resolved (r : Resolved) : Plain (.resolved r)
  | exception (e : Exception) : Plain (.exception e)

/-- The first value is what a branch of a fan-out on the second one starts from. -/
inductive PartOf : Value → Value → Prop
  | void : PartOf .void .void
  | lookup (domain : String) : PartOf (.lookup domain) (.lookup domain)
  | resolved (r : Resolved) : PartOf (.resolved r) (.resolved r)
  | endpoint {e : Endpoint} {es : List Endpoint} : e ∈ es → PartOf (.endpoint e) (.endpoints es)

theorem plain_unexpected (name : String) (v : Value) : (unexpected name v).Plain := .exception _

end Value

theorem plain_exceptionOrVoid (vs : List Value) : (exceptionOrVoid vs).Plain := by
  rw [exceptionOrVoid]
  split
  · exact .exception _
  · exact .void

theorem plain_mergeLookups (domain : String) (vs : List Value) :
    (mergeLookups domain vs).Plain := by
  rw [mergeLookups]
  split
  · exact .exception _
  · exact .resolved _

/-! ## Invariants -/

/-- What holds of every course that a compiled program may take on a value. -/
structure Course.Invariant (Good : Value → Course → Prop) : Prop where
  /-- A value is passed on, or replaced by a plain one. -/
  still : ∀ v w, w = v ∨ w.Plain → Good v (.still w)
  call : ∀ l place v w h, Leaf.Did l v w (deeds h) → Good v ⟨w, h, [⟨place, v, w, h⟩]⟩
  followedBy : ∀ v a b, Good v a → Good a.output b → Good v (a.followedBy b)
  gathers : ∀ v reduce bs c, (∀ b ∈ bs, ∃ u : Value, u.PartOf v ∧ Good u b) →
    (∀ vs, (reduce vs).Plain) → c.Gathers reduce bs → Good v c

namespace Operation

variable {Good : Value → Course → Prop} {s : Scope} {place : List Nat} {v : Value} {c : Course}

/-- Every course of the operation is good. -/
def TakesGood (Good : Value → Course → Prop) (op : Operation) : Prop :=
  ∀ s place v c, op.MayTake s place v c → Good v c

theorem good_of_called {α : Type} {name : String} {accept : Value → Option α}
    {call : α → Course → Prop} (hGood : Course.Invariant Good)
    (hcall : ∀ a, accept v = some a → call a c → Good v c) (h : Called name accept call v c) :
    Good v c := by
  rw [Called] at h
  by_cases hv : v.isSentinel = true
  · rw [if_pos hv] at h
    exact h ▸ hGood.still v v (.inl rfl)
  · rw [if_neg hv] at h
    cases ha : accept v with
    | some a =>
      rw [ha] at h
      exact hcall a ha h
    | none =>
      rw [ha] at h
      exact h ▸ hGood.still v _ (.inr (v.plain_unexpected name))

theorem good_of_sequence (hGood : Course.Invariant Good) {ops : List Operation}
    (hops : ∀ op ∈ ops, op.TakesGood Good) {i : Nat} (h : SequenceMayTake s place i ops v c) :
    Good v c := by
  induction ops generalizing i v c with
  | nil =>
    rw [SequenceMayTake] at h
    exact h ▸ hGood.still v v (.inl rfl)
  | cons op ops ih =>
    rw [SequenceMayTake] at h
    obtain ⟨a, b, ha, hb, rfl⟩ := h
    exact hGood.followedBy v a b (hops op List.mem_cons_self _ _ _ _ ha)
      (ih (fun o ho => hops o (List.mem_cons_of_mem op ho)) hb)

theorem good_of_branches {ops : List Operation} (hops : ∀ op ∈ ops, op.TakesGood Good) {i : Nat}
    {bs : List Course} (h : BranchesMayTake s place i ops v bs) : ∀ b ∈ bs, Good v b := by
  induction ops generalizing i bs with
  | nil =>
    rw [BranchesMayTake] at h
    subst h
    nofun
  | cons op ops ih =>
    rw [BranchesMayTake] at h
    obtain ⟨b, rest, hb, hrest, rfl⟩ := h
    intro d hd
    rcases List.mem_cons.1 hd with rfl | hd
    · exact hops op List.mem_cons_self _ _ _ _ hb
    · exact ih (fun o ho => hops o (List.mem_cons_of_mem op ho)) hrest d hd

/-- A fan-out of operations that all start from the value that the fan-out takes. -/
theorem good_of_fanOut (hGood : Course.Invariant Good) {α : Type} {name : String}
    {accept : Value → Option α} {p : α → Value} {reduce : α → List Value → Value}
    {ops : List Operation} (hops : ∀ op ∈ ops, op.TakesGood Good)
    (hpart : ∀ v a, accept v = some a → (p a).PartOf v) (hplain : ∀ a vs, (reduce a vs).Plain)
    (h : Called name accept (fun a c =>
      ∃ bs, BranchesMayTake s place 0 ops (p a) bs ∧ c.Gathers (reduce a) bs) v c) :
    Good v c := by
  refine good_of_called hGood (fun a ha ⟨bs, hbs, hc⟩ => ?_) h
  exact hGood.gathers v (reduce a) bs c
    (fun b hb => ⟨p a, hpart v a ha, good_of_branches hops hbs b hb⟩) (hplain a) hc

theorem hereditary_takesGood (hGood : Course.Invariant Good) : Hereditary (TakesGood Good) where
  identity s place v c h := by
    rw [MayTake] at h
    exact h ▸ hGood.still v v (.inl rfl)
  discard s place v c h := by
    rw [MayTake] at h
    refine h ▸ hGood.still v _ ?_
    split
    · exact .inl rfl
    · exact .inr .void
  leaf l s place v c h := by
    rw [MayTake] at h
    obtain ⟨htraces, hcalls⟩ := h
    have hcall := hGood.call l place v c.output c.history (Leaf.did_of_traces htraces)
    rwa [← hcalls] at hcall
  compose ops hops s place v c h := by
    rw [MayTake] at h
    exact good_of_sequence hGood hops h
  lookupParallel ops hops s place v c h := by
    rw [MayTake] at h
    exact good_of_fanOut hGood hops (fun v d hd => Value.eq_of_lookup? hd ▸ .lookup d)
      plain_mergeLookups h
  measureDomains ops hops s place v c h := by
    rw [MayTake] at h
    refine good_of_fanOut hGood (p := fun _ => .void) hops (fun v _ hv => ?_)
      (fun _ => plain_exceptionOrVoid) h
    obtain rfl := Value.eq_of_void? hv
    exact .void
  measureEndpoints ops hops s place v c h := by
    rw [MayTake] at h
    exact good_of_fanOut hGood hops (fun v r hr => Value.eq_of_resolved? hr ▸ .resolved r)
      (fun _ => plain_exceptionOrVoid) h
  endpointPipeline ops hops s place v c h := by
    rw [MayTake] at h
    refine good_of_called hGood (fun es hes ⟨bs, hbs, hc⟩ => ?_) h
    obtain rfl := Value.eq_of_endpoints? hes
    refine hGood.gathers _ _ bs c (fun b hb => ?_) plain_exceptionOrVoid hc
    obtain ⟨e, he, hbe⟩ := exists_of_forall₂_of_mem hbs hb
    exact ⟨.endpoint e, .endpoint he, good_of_sequence hGood hops hbe⟩

/-- An invariant holds of every course of a compiled program. -/
theorem good_of_mayTake (hGood : Course.Invariant Good) {n : Node} {op : Operation}
    (hop : (Registry.standard.compile n).result = .ok op) (h : op.MayTake s place v c) :
    Good v c := by
  have hgood : op.TakesGood Good :=
    Registry.compile_standard_induction (hereditary_takesGood hGood) hop
  exact hgood s place v c h

end Operation

/-! ## Histories are made of calls -/

/-- What a call of some leaf can come to. -/
def Call.Did (c : Call) : Prop :=
  ∃ l : Leaf, l.Did c.input c.output (deeds c.history)

/-- The calls do everything in the history. -/
def Course.Accounted (c : Course) : Prop :=
  c.history.Perm (c.calls.flatMap Call.history) ∧ ∀ call ∈ c.calls, call.Did

namespace Course

theorem Accounted.followedBy {a b : Course} (ha : a.Accounted) (hb : b.Accounted) :
    (a.followedBy b).Accounted := by
  refine ⟨?_, fun call hcall => ?_⟩
  · simpa [Course.followedBy] using ha.1.append hb.1
  · exact (List.mem_append.1 hcall).elim (ha.2 call) (hb.2 call)

theorem Gathers.accounted {reduce : List Value → Value} {bs : List Course} {c : Course}
    (hc : c.Gathers reduce bs) (hbs : ∀ b ∈ bs, b.Accounted) : c.Accounted := by
  obtain ⟨vs, -, -, hhistory, hcalls⟩ := hc
  refine ⟨hhistory.perm.trans ?_, fun call hcall => ?_⟩
  · rw [hcalls, List.flatMap_assoc, ← List.flatMap_def]
    exact List.Perm.flatMap_left bs fun b hb => (hbs b hb).1
  · rw [hcalls] at hcall
    obtain ⟨b, hb, hcall⟩ := List.mem_flatMap.1 hcall
    exact (hbs b hb).2 call hcall

theorem invariant_accounted : Invariant fun _ c => c.Accounted where
  still v w _ := ⟨.refl [], fun _ hcall => absurd hcall List.not_mem_nil⟩
  call l place v w h hdid := by
    refine ⟨by simp, fun call hcall => ?_⟩
    obtain rfl := List.mem_singleton.1 hcall
    exact ⟨l, hdid⟩
  followedBy v a b ha hb := ha.followedBy hb
  gathers v reduce bs c hbs _ hc := hc.accounted fun b hb => (hbs b hb).elim fun _ h => h.2

end Course

end NetProbe
