import NetProbe.Proofs.Operation.Courses
import NetProbe.Proofs.Run.Terms
set_option autoImplicit false

/-! # Programs that keep to terms

An operation of a compiled program passes values on, gathers those of its branches, and otherwise
does what its leaves do. So if the leaves keep to terms on values of some kind, and the values that
are passed on and gathered are of this kind, the program keeps to terms (`honours_of_compile`). -/

namespace NetProbe

open Activity (Honours)

/-- Whether leaves keep to terms, in a scope and on values of a kind that nothing else leads out
    of. -/
structure Terms.Cover (K : Terms) (s : Scope) (P : Value → Prop) : Prop where
  plain : ∀ v : Value, v.Plain → P v
  part : ∀ u v : Value, u.PartOf v → P v → P u
  leaf : ∀ (l : Leaf) t v, P v → Honours K t P (l.apply s v)

section Typed

variable {K : Terms} {P : Value → Prop} {t : Time} {v : Value}

/-- What takes values of one kind keeps to terms if it does with these. -/
theorem honours_typed {α : Type} {name : String} {accept : Value → Option α} {call : α → Activity}
    (hplain : ∀ v : Value, v.Plain → P v) (hv : P v)
    (hcall : ∀ a, accept v = some a → Honours K t P (call a)) :
    Honours K t P (typed name accept call v) := by
  rw [typed]
  split
  · exact .done hv
  · cases ha : accept v with
    | some a => exact hcall a ha
    | none => exact .done (hplain _ (v.plain_unexpected name))

/-- A leaf that measures keeps to terms if its script does. -/
theorem Leaf.honours_measure {α β : Type} {l : Leaf} {accept : Value → Option α} {wrap : β → Value}
    {script : α → Script (Outcome β)} (hplain : ∀ v : Value, v.Plain → P v) (hv : P v)
    (hscript : ∀ a, accept v = some a →
      (script a).Honours K (fun _ o => P (o.value l.name wrap)) t) :
    Honours K t P (l.measure accept wrap script v) :=
  honours_typed hplain hv fun a ha =>
    Script.Honours.activity (Script.honours_bind.2 (hscript a ha))

end Typed

namespace Operation

variable {K : Terms} {s : Scope} {P : Value → Prop}

/-- Whether an operation keeps to terms on values of a kind. -/
def Honours (K : Terms) (s : Scope) (P : Value → Prop) (op : Operation) : Prop :=
  ∀ t v, P v → Activity.Honours K t P (op.apply s v)

theorem honours_applyAll {ops : List Operation} (hops : ∀ op ∈ ops, op.Honours K s P) {t : Time}
    {v : Value} (hv : P v) : Activity.Honours K t P (applyAll s ops v) := by
  induction ops generalizing t v with
  | nil =>
    rw [applyAll]
    exact .done hv
  | cons op ops ih =>
    rw [applyAll]
    refine (hops op List.mem_cons_self t v hv).bind fun t' _ u hu => ?_
    exact ih (fun o ho => hops o (List.mem_cons_of_mem op ho)) hu

theorem honours_branches {ops : List Operation} (hops : ∀ op ∈ ops, op.Honours K s P) {t : Time}
    {v : Value} (hv : P v) : ∀ p ∈ branches s ops v, Activity.Honours K t P p := by
  induction ops with
  | nil =>
    intro p hp
    rw [branches] at hp
    cases hp
  | cons op ops ih =>
    intro p hp
    rw [branches] at hp
    rcases List.mem_cons.1 hp with rfl | hp
    · exact hops op List.mem_cons_self t v hv
    · exact ih (fun o ho => hops o (List.mem_cons_of_mem op ho)) p hp

variable (hK : K.Cover s P)

include hK

/-- Several operations on what a value is taken for. -/
theorem honours_fanOut {α : Type} {name : String} {accept : Value → Option α} {p : α → Value}
    {reduce : α → List Value → Value} {width : Nat} {ops : List Operation}
    (hops : ∀ op ∈ ops, op.Honours K s P)
    (hpart : ∀ v a, accept v = some a → (p a).PartOf v) (hplain : ∀ a vs, (reduce a vs).Plain)
    {t : Time} {v : Value} (hv : P v) :
    Activity.Honours K t P (typed name accept (fun a =>
      Activity.all width (branches s ops (p a)) fun vs => .done (reduce a vs)) v) := by
  refine honours_typed hK.plain hv fun a ha => .all (honours_branches hops ?_) fun _ _ vs _ => ?_
  · exact hK.part _ v (hpart v a ha) hv
  · exact .done (hK.plain _ (hplain a vs))

theorem hereditary_honours : Hereditary (Honours K s P) where
  identity t v hv := by
    rw [apply]
    exact .done hv
  discard t v hv := by
    rw [apply]
    refine .done ?_
    split
    · exact hv
    · exact hK.plain _ .void
  leaf l t v hv := by
    rw [apply]
    exact hK.leaf l t v hv
  compose ops hops t v hv := by
    rw [apply]
    exact honours_applyAll hops hv
  lookupParallel ops hops t v hv := by
    rw [apply]
    exact honours_fanOut hK hops (fun v d hd => Value.eq_of_lookup? hd ▸ .lookup d)
      plain_mergeLookups hv
  measureDomains ops hops t v hv := by
    rw [apply]
    refine honours_fanOut hK (p := fun _ => .void) hops (fun v _ hv => ?_)
      (fun _ => plain_exceptionOrVoid) hv
    obtain rfl := Value.eq_of_void? hv
    exact .void
  measureEndpoints ops hops t v hv := by
    rw [apply]
    exact honours_fanOut hK hops (fun v r hr => Value.eq_of_resolved? hr ▸ .resolved r)
      (fun _ => plain_exceptionOrVoid) hv
  endpointPipeline ops hops t v hv := by
    rw [apply]
    refine honours_typed hK.plain hv fun es hes => .all (R := P) (fun p hp => ?_) fun _ _ vs _ => ?_
    · obtain rfl := Value.eq_of_endpoints? hes
      obtain ⟨e, he, rfl⟩ := List.mem_map.1 hp
      exact honours_applyAll hops (hK.part _ _ (.endpoint he) hv)
    · exact .done (hK.plain _ (plain_exceptionOrVoid vs))

/-- A compiled program keeps to terms to which its leaves keep. -/
theorem honours_of_compile {n : Node} {op : Operation}
    (hop : (Registry.standard.compile n).result = .ok op) : op.Honours K s P :=
  Registry.compile_standard_induction (hereditary_honours hK) hop

end Operation

end NetProbe
