import NetProbe.Proofs.Pairs
import NetProbe.Proofs.Registry.Lookup
import NetProbe.Proofs.Results
set_option autoImplicit false

/-! # Induction on how programs are compiled

What holds of every operation that a template makes of children of which it holds, for each template
of a registry, holds of every operation that the registry compiles: `Registry.compile_induction`.
For the standard templates it is enough to look at the constructors of operations, `Hereditary`. -/

namespace NetProbe

theorem Compilation.children_result (cs : List Child) :
    (Compilation.children cs).result = cs.mapM fun c => c.compiled.result := by
  induction cs with
  | nil => rfl
  | cons c cs ih =>
    rw [Compilation.children, List.mapM_cons, ← ih]
    cases c.compiled.result with
    | error e => rfl
    | ok op =>
      cases h : (Compilation.children cs).result <;>
        simp [h, Except.map, bind, Except.bind, pure, Except.pure]

/-! ## What templates make -/

namespace Template

theorem leaf_result {σ : Type} (name : String) (schema : Json.Schema σ)
    (make : σ → Except CompileError Operation) (known : String → Bool) (n : Node)
    (cs : List Child) :
    ((leaf name schema make).compile known n cs).result = (do
      let arguments ← n.decodeArguments schema
      n.requireChildren 0
      make arguments) := rfl

theorem group_result (name : String) (least : Nat) (make : List Operation → Operation)
    (known : String → Bool) (n : Node) (cs : List Child) :
    ((group name least make).compile known n cs).result = (do
      let _ ← n.decodeArguments NoArguments.schema
      n.requireAtLeast least
      (Compilation.children cs).result.map make) := by
  cases h : n.decodeArguments NoArguments.schema with
  | error e => simp only [group, h]; rfl
  | ok _ =>
    cases h' : n.requireAtLeast least <;> simp only [group, h] <;>
      simp [bind, Except.bind, h', Compilation.refuse, Compilation.map]

theorem group_eq_ok_iff {name : String} {least : Nat} {make : List Operation → Operation}
    {known : String → Bool} {n : Node} {cs : List Child} {op : Operation} :
    ((group name least make).compile known n cs).result = .ok op ↔
      (∃ a, n.decodeArguments NoArguments.schema = .ok a) ∧ least ≤ n.children.length ∧
        ∃ ops, (Compilation.children cs).result = .ok ops ∧ make ops = op := by
  have hleast : n.requireAtLeast least = .ok () ↔ least ≤ n.children.length := by
    rw [Node.requireAtLeast]
    split <;> simp_all
  simp only [group_result, bind_eq_ok_iff, map_eq_ok_iff, ← hleast, exists_and_right,
    exists_unit_eq_ok_iff]

theorem ifExists_result (known : String → Bool) (n : Node) (cs : List Child) :
    (ifExists.compile known n cs).result = (do
      n.requireChildren 1
      match cs with
      | [c] => if known c.func then c.compiled.result else .ok .identity
      | _ => .ok .identity) := by
  cases h : n.requireChildren 1 with
  | error e => simp only [ifExists, h]; rfl
  | ok _ =>
    match cs with
    | [] => simp only [ifExists, h]; rfl
    | [c] =>
      simp only [ifExists, h]
      by_cases hc : known c.func = true
      · rw [if_pos hc]; simp [bind, Except.bind, hc]
      · rw [if_neg hc]; simp [bind, Except.bind, hc]
    | _ :: _ :: _ => simp only [ifExists, h]; rfl

/-! ## Properties that templates keep -/

/-- Whatever the template makes of children with a property has that property too. -/
def Keeps (P : Operation → Prop) (t : Template) : Prop :=
  ∀ known n cs op, (∀ c ∈ cs, ∀ o, c.compiled.result = .ok o → P o) →
    (t.compile known n cs).result = .ok op → P op

variable {P : Operation → Prop}

theorem keeps_leaf {σ : Type} {name : String} {schema : Json.Schema σ}
    {make : σ → Except CompileError Operation} (h : ∀ a op, make a = .ok op → P op) :
    (leaf name schema make).Keeps P := by
  intro known n cs op _ hop
  simp only [leaf_result, bind_eq_ok_iff] at hop
  obtain ⟨a, -, -, -, hmake⟩ := hop
  exact h a op hmake

theorem keeps_group {name : String} {least : Nat} {make : List Operation → Operation}
    (h : ∀ ops, (∀ op ∈ ops, P op) → P (make ops)) : (group name least make).Keeps P := by
  intro known n cs op hcs hop
  simp only [group_eq_ok_iff, Compilation.children_result, mapM_eq_ok_iff] at hop
  obtain ⟨-, -, ops, hops, rfl⟩ := hop
  refine h ops fun o ho => ?_
  obtain ⟨c, hc, hco⟩ := exists_of_forall₂_of_mem hops ho
  exact hcs c hc o hco

theorem keeps_ifExists (h : P .identity) : ifExists.Keeps P := by
  intro known n cs op hcs hop
  rw [ifExists_result, bind_eq_ok_iff] at hop
  obtain ⟨-, -, hop⟩ := hop
  split at hop
  · next c =>
    split at hop
    · exact hcs c List.mem_cons_self op hop
    · exact Except.ok.inj hop ▸ h
  · exact Except.ok.inj hop ▸ h

end Template

/-- A property that every built-in operation has if the operations in it have it. -/
structure Operation.Hereditary (P : Operation → Prop) : Prop where
  identity : P .identity
  discard : P .discard
  leaf : ∀ l, P (.leaf l)
  compose : ∀ ops, (∀ op ∈ ops, P op) → P (.compose ops)
  lookupParallel : ∀ ops, (∀ op ∈ ops, P op) → P (.lookupParallel ops)
  measureDomains : ∀ ops, (∀ op ∈ ops, P op) → P (.measureDomains ops)
  measureEndpoints : ∀ ops, (∀ op ∈ ops, P op) → P (.measureEndpoints ops)
  endpointPipeline : ∀ ops, (∀ op ∈ ops, P op) → P (.endpointPipeline ops)

namespace Template

variable {P : Operation → Prop}

/-- A template for a leaf whose arguments are checked first. -/
theorem keeps_checkedLeaf {σ α : Type} {name : String} {schema : Json.Schema σ}
    {check : σ → Except CompileError α} {make : α → Leaf} (h : ∀ l, P (.leaf l)) :
    (leaf name schema fun a => do return .leaf (make (← check a))).Keeps P := by
  refine keeps_leaf fun a op hop => ?_
  obtain ⟨b, -, hb⟩ := bind_eq_ok_iff.1 hop
  exact Except.ok.inj hb ▸ h (make b)

theorem keeps_of_mem_standard (hP : Operation.Hereditary P) {t : Template} (ht : t ∈ standard) :
    t.Keeps P := by
  have leafKeeps {σ : Type} (name : String) (schema : Json.Schema σ) (make : σ → Leaf) :
      (leaf name schema fun a => .ok (.leaf (make a))).Keeps P :=
    keeps_leaf fun a op hop => Except.ok.inj hop ▸ hP.leaf (make a)
  simp only [standard, List.mem_cons, List.not_mem_nil, or_false] at ht
  rcases ht with rfl | rfl | rfl | rfl | rfl | rfl | rfl | rfl | rfl | rfl | rfl | rfl | rfl |
    rfl | rfl | rfl
  · exact keeps_group hP.compose
  · exact keeps_leaf fun a op hop => Except.ok.inj hop ▸ hP.discard
  · exact keeps_checkedLeaf hP.leaf
  · exact leafKeeps _ _ _
  · exact keeps_group hP.lookupParallel
  · exact keeps_checkedLeaf hP.leaf
  · exact keeps_checkedLeaf hP.leaf
  · exact keeps_checkedLeaf hP.leaf
  · exact keeps_ifExists hP.identity
  · exact leafKeeps _ _ _
  · exact keeps_group hP.measureDomains
  · exact keeps_group hP.measureEndpoints
  · exact keeps_group hP.endpointPipeline
  · exact leafKeeps _ _ _
  · exact leafKeeps _ _ _
  · exact leafKeeps _ _ _

end Template

namespace Registry

variable {P : Operation → Prop}

mutual

theorem compile_induction {r : Registry} (h : ∀ name t, r.find? name = some t → t.Keeps P) :
    ∀ (n : Node) (op : Operation), (r.compile n).result = .ok op → P op
  | ⟨func, arguments, children⟩, op, hop => by
    cases hf : r.find? func with
    | none =>
      rw [compile_of_find?_eq_none hf] at hop
      cases hop
    | some t =>
      rw [compile_of_find? hf] at hop
      exact h func t hf _ _ _ op (compileChildren_induction h children) hop

theorem compileChildren_induction {r : Registry}
    (h : ∀ name t, r.find? name = some t → t.Keeps P) :
    ∀ (ns : List Node), ∀ c ∈ r.compileChildren ns, ∀ o, c.compiled.result = .ok o → P o
  | [], c, hc => by cases hc
  | n :: rest, c, hc => by
    rw [compileChildren] at hc
    rcases List.mem_cons.1 hc with rfl | hc
    · exact compile_induction h n
    · exact compileChildren_induction h rest c hc

end

/-- What is hereditary holds of every operation that the standard registry compiles. -/
theorem compile_standard_induction (hP : Operation.Hereditary P) {n : Node} {op : Operation}
    (hop : (standard.compile n).result = .ok op) : P op :=
  compile_induction (fun _ _ ht => Template.keeps_of_mem_standard hP (mem_standard_of_find? ht))
    n op hop

end Registry

end NetProbe
