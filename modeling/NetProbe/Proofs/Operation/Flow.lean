import Mathlib.Algebra.Order.BigOperators.Group.List
import Mathlib.Data.Multiset.OrderedMonoid
import NetProbe.Proofs.Operation.Courses
set_option autoImplicit false

/-! # The flow of connections

Connections go from one call to the next and are never doubled: whatever they weigh, the calls of a
course take at most what it starts with and what they give, `Course.invariant_flows`. So the
connection that a call takes in a course that starts without one was given by some call. Their
addresses have no scope, since endpoints have none, `Course.invariant_unscoped`. -/

namespace NetProbe

/-! ## Weights -/

/-- What the connection weighs, if the value is one. -/
def Value.weight {α : Type} (f : Connection → Multiset α) : Value → Multiset α
  | .connection c => f c
  | _ => 0

theorem Value.weight_of_isSentinel {α : Type} {v : Value} (hv : v.isSentinel = true)
    (f : Connection → Multiset α) : v.weight f = 0 := by
  cases v <;> first | rfl | cases hv

theorem Value.Plain.weight_eq {α : Type} {v : Value} (hv : v.Plain) (f : Connection → Multiset α) :
    v.weight f = 0 := by
  cases hv <;> rfl

theorem Value.PartOf.weight_eq {α : Type} {u v : Value} (hu : u.PartOf v)
    (f : Connection → Multiset α) : u.weight f = 0 := by
  cases hu <;> rfl

/-- What calls take. -/
def weightIn {α : Type} (f : Connection → Multiset α) (calls : List Call) : Multiset α :=
  (calls.map fun call => call.input.weight f).sum

/-- What calls give. -/
def weightOut {α : Type} (f : Connection → Multiset α) (calls : List Call) : Multiset α :=
  (calls.map fun call => call.output.weight f).sum

section Weights

variable {α : Type} (f : Connection → Multiset α)

theorem weightIn_append (as bs : List Call) :
    weightIn f (as ++ bs) = weightIn f as + weightIn f bs := by
  rw [weightIn, List.map_append, List.sum_append]
  rfl

theorem weightOut_append (as bs : List Call) :
    weightOut f (as ++ bs) = weightOut f as + weightOut f bs := by
  rw [weightOut, List.map_append, List.sum_append]
  rfl

/-- A course takes and leaves at most what it starts with and what its calls give. -/
def Course.Flows (v : Value) (c : Course) : Prop :=
  weightIn f c.calls + c.output.weight f ≤ weightOut f c.calls + v.weight f

/-- Branches that start without connections. -/
theorem weightIn_le_of_branches {bs : List Course}
    (h : ∀ b ∈ bs, weightIn f b.calls ≤ weightOut f b.calls) :
    weightIn f (bs.flatMap Course.calls) ≤ weightOut f (bs.flatMap Course.calls) := by
  induction bs with
  | nil => exact le_refl _
  | cons b bs ih =>
    rw [List.flatMap_cons, weightIn_append, weightOut_append]
    exact add_le_add (h b List.mem_cons_self) (ih fun c hc => h c (List.mem_cons_of_mem b hc))

theorem Course.invariant_flows : Course.Invariant (Course.Flows f) where
  still v w hw := by
    show 0 + w.weight f ≤ 0 + v.weight f
    rw [zero_add, zero_add]
    rcases hw with rfl | hw
    · exact le_refl _
    · rw [hw.weight_eq]
      exact zero_le
  call l place v w h _ := by
    show v.weight f + 0 + w.weight f ≤ w.weight f + 0 + v.weight f
    rw [add_zero, add_zero, add_comm]
  followedBy v a b ha hb := by
    rw [Flows] at ha hb
    show weightIn f (a.calls ++ b.calls) + b.output.weight f
      ≤ weightOut f (a.calls ++ b.calls) + v.weight f
    rw [weightIn_append, weightOut_append]
    calc weightIn f a.calls + weightIn f b.calls + b.output.weight f
        = weightIn f a.calls + (weightIn f b.calls + b.output.weight f) := add_assoc _ _ _
      _ ≤ weightIn f a.calls + (weightOut f b.calls + a.output.weight f) := add_le_add le_rfl hb
      _ = weightOut f b.calls + (weightIn f a.calls + a.output.weight f) := add_left_comm _ _ _
      _ ≤ weightOut f b.calls + (weightOut f a.calls + v.weight f) := add_le_add le_rfl ha
      _ = weightOut f a.calls + weightOut f b.calls + v.weight f := by
        rw [← add_assoc, add_comm (weightOut f b.calls)]
  gathers v reduce bs c hbs hplain hc := by
    obtain ⟨vs, -, houtput, -, hcalls⟩ := hc
    -- No branch starts with a connection, and what branches are left with is dropped.
    have hbranches : ∀ b ∈ bs, weightIn f b.calls ≤ weightOut f b.calls := by
      intro b hb
      obtain ⟨u, hu, hflows⟩ := hbs b hb
      rw [Flows, hu.weight_eq, add_zero] at hflows
      exact le_trans le_self_add hflows
    rw [Flows, houtput, (hplain vs).weight_eq, add_zero, hcalls]
    exact le_trans (weightIn_le_of_branches f hbranches) le_self_add

end Weights

/-! ## Addresses -/

/-- Whether the addresses in the value have no scope. -/
def Value.Unscoped : Value → Prop
  | .endpoint e => e.address.scope = 0
  | .endpoints es => ∀ e ∈ es, e.address.scope = 0
  | .connection c => c.address.scope = 0
  | _ => True

theorem Value.Plain.unscoped {v : Value} (hv : v.Plain) : v.Unscoped := by
  cases hv <;> trivial

theorem Value.PartOf.unscoped {u v : Value} (hu : u.PartOf v) (hv : v.Unscoped) : u.Unscoped := by
  cases hu with
  | endpoint he => exact hv _ he
  | _ => trivial

theorem Leaf.Did.unscoped {l : Leaf} {v w : Value} {ds : List Deed} (hdid : l.Did v w ds)
    (hv : v.Unscoped) : w.Unscoped := by
  cases hdid with
  | passed => exact hv
  | makeEndpoints =>
    intro e he
    obtain ⟨ip, -, rfl⟩ := List.mem_map.1 he
    rfl
  | connected => exact hv
  | tlsDone => exact hv
  | quicDone => exact hv
  | _ => trivial

/-- A course that starts with addresses without a scope has no others. -/
theorem Course.invariant_unscoped : Course.Invariant fun v c =>
    v.Unscoped → c.output.Unscoped ∧ ∀ call ∈ c.calls, call.input.Unscoped where
  still v w hw hv := by
    refine ⟨?_, fun _ hcall => absurd hcall List.not_mem_nil⟩
    rcases hw with rfl | hw
    · exact hv
    · exact hw.unscoped
  call l place v w h hdid hv := by
    refine ⟨hdid.unscoped hv, fun call hcall => ?_⟩
    obtain rfl := List.mem_singleton.1 hcall
    exact hv
  followedBy v a b ha hb hv := by
    obtain ⟨hmid, hcalls⟩ := ha hv
    obtain ⟨hout, hcalls'⟩ := hb hmid
    exact ⟨hout, fun call hcall => (List.mem_append.1 hcall).elim (hcalls call) (hcalls' call)⟩
  gathers v reduce bs c hbs hplain hc hv := by
    obtain ⟨vs, -, houtput, -, hcalls⟩ := hc
    refine ⟨houtput ▸ (hplain vs).unscoped, fun call hcall => ?_⟩
    rw [hcalls] at hcall
    obtain ⟨b, hb, hcall⟩ := List.mem_flatMap.1 hcall
    obtain ⟨u, hu, hunscoped⟩ := hbs b hb
    exact (hunscoped (hu.unscoped hv)).2 call hcall

end NetProbe
