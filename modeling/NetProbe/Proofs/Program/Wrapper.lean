import NetProbe.Proofs.Registry.Induction
set_option autoImplicit false

/-! # Programs without wrappers

`if_func_exists` only matters while a program is compiled: `Node.strip` replaces each wrapper by
what it wraps, or by an empty sequence if the registry does not know that operation, and
`Registry.compile_strip` says that nobody can tell the difference. Two results are `Alike` when they
are the same fault, or operations with the same activities. Templates that are not built in may take
part, as long as they use of the children of a node nothing but what these compile to
(`Uniform`). -/

namespace NetProbe

/-! ## Taking wrappers away -/

namespace Node

mutual

/-- The program without its wrappers of one node, given which operations are known. -/
def strip (known : String → Bool) : Node → Node
  | ⟨func, arguments, children⟩ =>
    match func == Template.ifExists.name, children, stripAll known children with
    | true, [child], [stripped] => if known child.func then stripped else .new "compose" []
    | _, _, stripped => ⟨func, arguments, stripped⟩

def stripAll (known : String → Bool) : List Node → List Node
  | [] => []
  | n :: rest => strip known n :: stripAll known rest

end

variable {known : String → Bool}

theorem length_stripAll (ns : List Node) : (stripAll known ns).length = ns.length := by
  induction ns with
  | nil => rw [stripAll]
  | cons n rest ih => rw [stripAll, List.length_cons, List.length_cons, ih]

theorem strip_wrapper (arguments : Json) (child : Node) :
    strip known ⟨Template.ifExists.name, arguments, [child]⟩
      = if known child.func then strip known child else .new "compose" [] := by
  simp only [strip, stripAll, beq_self_eq_true]

theorem strip_of_ne {func : String} (h : func ≠ Template.ifExists.name) (arguments : Json)
    (children : List Node) :
    strip known ⟨func, arguments, children⟩ = ⟨func, arguments, stripAll known children⟩ := by
  simp only [strip, beq_eq_false_iff_ne.2 h]

theorem strip_of_length_ne (func : String) (arguments : Json) {children : List Node}
    (h : children.length ≠ 1) :
    strip known ⟨func, arguments, children⟩ = ⟨func, arguments, stripAll known children⟩ := by
  have hchild : ∀ child, children ≠ [child] := by
    rintro child rfl
    exact h rfl
  rw [strip]
  intro child _ _ hc _
  exact hchild child hc

end Node

/-! ## What nobody can tell apart -/

/-- Operations with the same activities. -/
def Operation.Same (a b : Operation) : Prop :=
  ∀ s v, a.apply s v = b.apply s v

/-- The same fault, or operations with the same activities. -/
def Alike : Except CompileError Operation → Except CompileError Operation → Prop
  | .ok a, .ok b => a.Same b
  | .error e, .error f => e = f
  | _, _ => False

theorem Alike.refl (r : Except CompileError Operation) : Alike r r := by
  cases r with
  | error e => exact rfl
  | ok op => exact fun _ _ => rfl

theorem Alike.of_eq {r q : Except CompileError Operation} (h : r = q) : Alike r q :=
  h ▸ Alike.refl r

/-- Children that compile alike, one by one. -/
def Child.Alike (c d : Child) : Prop :=
  NetProbe.Alike c.compiled.result d.compiled.result

theorem Compilation.children_alike {cs ds : List Child} (h : List.Forall₂ Child.Alike cs ds) :
    (∃ e, (Compilation.children cs).result = .error e ∧
        (Compilation.children ds).result = .error e) ∨
      ∃ ops ops', (Compilation.children cs).result = .ok ops ∧
        (Compilation.children ds).result = .ok ops' ∧ List.Forall₂ Operation.Same ops ops' := by
  induction h with
  | nil => exact .inr ⟨[], [], rfl, rfl, .nil⟩
  | @cons c d cs ds hcd _ ih =>
    simp only [children_result, List.mapM_cons] at ih ⊢
    unfold Child.Alike at hcd
    cases hc : c.compiled.result with
    | error e =>
      cases hd : d.compiled.result with
      | error f =>
        rw [hc, hd] at hcd
        exact .inl ⟨e, rfl, congrArg _ (Eq.symm hcd)⟩
      | ok op => rw [hc, hd] at hcd; exact hcd.elim
    | ok op =>
      cases hd : d.compiled.result with
      | error f => rw [hc, hd] at hcd; exact hcd.elim
      | ok op' =>
        rw [hc, hd] at hcd
        rcases ih with ⟨e, hcs, hds⟩ | ⟨ops, ops', hcs, hds, hops⟩
        · exact .inl ⟨e, by rw [hcs]; rfl, by rw [hds]; rfl⟩
        · exact .inr ⟨op :: ops, op' :: ops', by rw [hcs]; rfl, by rw [hds]; rfl, .cons hcd hops⟩

/-! ## Sequences and fan-outs of the same operations -/

namespace Operation

variable {s : Scope}

theorem applyAll_same {ops ops' : List Operation} (h : List.Forall₂ Same ops ops') :
    applyAll s ops = applyAll s ops' := by
  induction h with
  | nil => rfl
  | cons hop _ ih =>
    funext v
    rw [applyAll, applyAll, hop s v, ih]

theorem branches_same {ops ops' : List Operation} (h : List.Forall₂ Same ops ops') (v : Value) :
    branches s ops v = branches s ops' v := by
  induction h with
  | nil => rfl
  | cons hop _ ih => rw [branches, branches, hop s v, ih]

/-- A way to make an operation of operations that cannot tell the same ones apart. -/
def Congruent (make : List Operation → Operation) : Prop :=
  ∀ ops ops', List.Forall₂ Same ops ops' → (make ops).Same (make ops')

theorem congruent_compose : Congruent .compose := by
  intro ops ops' h s v
  rw [apply, apply, applyAll_same h]

theorem congruent_lookupParallel : Congruent .lookupParallel := by
  intro ops ops' h s v
  simp only [apply, branches_same h]

theorem congruent_measureDomains : Congruent .measureDomains := by
  intro ops ops' h s v
  simp only [apply, branches_same h]

theorem congruent_measureEndpoints : Congruent .measureEndpoints := by
  intro ops ops' h s v
  simp only [apply, branches_same h]

theorem congruent_endpointPipeline : Congruent .endpointPipeline := by
  intro ops ops' h s v
  simp only [apply, applyAll_same h]

end Operation

/-! ## Templates that do not look inside children -/

namespace Node

variable {n m : Node}

theorem decodeArguments_congr {σ : Type} (schema : Json.Schema σ) (hfunc : n.func = m.func)
    (harguments : n.arguments = m.arguments) :
    n.decodeArguments schema = m.decodeArguments schema := by
  simp only [decodeArguments, hfunc, harguments]

theorem requireChildren_congr (count : Nat) (hfunc : n.func = m.func)
    (hlength : n.children.length = m.children.length) :
    n.requireChildren count = m.requireChildren count := by
  simp only [requireChildren, hfunc, hlength]

theorem requireAtLeast_congr (count : Nat) (hfunc : n.func = m.func)
    (hlength : n.children.length = m.children.length) :
    n.requireAtLeast count = m.requireAtLeast count := by
  simp only [requireAtLeast, hfunc, hlength]

end Node

namespace Template

/-- A template that uses of the children of a node only how many there are and what they compile to,
    and of that only what it does. -/
def Uniform (t : Template) : Prop :=
  ∀ known (n m : Node) (cs ds : List Child), n.func = m.func → n.arguments = m.arguments →
    n.children.length = m.children.length → List.Forall₂ Child.Alike cs ds →
    Alike (t.compile known n cs).result (t.compile known m ds).result

theorem uniform_leaf {σ : Type} (name : String) (schema : Json.Schema σ)
    (make : σ → Except CompileError Operation) : (leaf name schema make).Uniform := by
  intro known n m cs ds hfunc harguments hlength _
  refine Alike.of_eq ?_
  rw [leaf_result, leaf_result, Node.decodeArguments_congr schema hfunc harguments,
    Node.requireChildren_congr 0 hfunc hlength]

theorem uniform_group {name : String} {least : Nat} {make : List Operation → Operation}
    (hmake : Operation.Congruent make) : (group name least make).Uniform := by
  intro known n m cs ds hfunc harguments hlength hcs
  rw [group_result, group_result, Node.decodeArguments_congr _ hfunc harguments,
    Node.requireAtLeast_congr least hfunc hlength]
  cases m.decodeArguments NoArguments.schema with
  | error e => exact rfl
  | ok _ =>
    cases m.requireAtLeast least with
    | error e => exact rfl
    | ok _ =>
      rcases Compilation.children_alike hcs with ⟨e, hc, hd⟩ | ⟨ops, ops', hc, hd, hops⟩
      · rw [hc, hd]
        exact rfl
      · rw [hc, hd]
        exact hmake ops ops' hops

/-- The standard templates are leaves, groups, and the wrapper. -/
theorem standard_cases {P : Template → Prop}
    (hleaf : ∀ {σ : Type} (name : String) (schema : Json.Schema σ) make, P (leaf name schema make))
    (hgroup : ∀ name least make, Operation.Congruent make → P (group name least make))
    (hifExists : P ifExists) {t : Template} (ht : t ∈ standard) : P t := by
  simp only [standard, List.mem_cons, List.not_mem_nil, or_false] at ht
  rcases ht with rfl | rfl | rfl | rfl | rfl | rfl | rfl | rfl | rfl | rfl | rfl | rfl | rfl |
    rfl | rfl | rfl
  · exact hgroup _ _ _ Operation.congruent_compose
  · exact hleaf _ _ _
  · exact hleaf _ _ _
  · exact hleaf _ _ _
  · exact hgroup _ _ _ Operation.congruent_lookupParallel
  · exact hleaf _ _ _
  · exact hleaf _ _ _
  · exact hleaf _ _ _
  · exact hifExists
  · exact hleaf _ _ _
  · exact hgroup _ _ _ Operation.congruent_measureDomains
  · exact hgroup _ _ _ Operation.congruent_measureEndpoints
  · exact hgroup _ _ _ Operation.congruent_endpointPipeline
  · exact hleaf _ _ _
  · exact hleaf _ _ _
  · exact hleaf _ _ _

theorem uniform_of_mem_standard {t : Template} (ht : t ∈ standard) (hne : t ≠ ifExists) :
    t.Uniform := by
  refine standard_cases (P := fun t => t ≠ ifExists → t.Uniform) ?_ ?_ ?_ ht hne
  · exact fun name schema make _ => uniform_leaf name schema make
  · exact fun _ _ _ hmake _ => uniform_group hmake
  · exact fun h => absurd rfl h

end Template

/-! ## Compiling without wrappers -/

namespace Registry

section

variable {r : Registry}

/-- A wrapper of one node stands for what it wraps, if the registry knows that. -/
theorem compile_wrapper (hr : r.find? Template.ifExists.name = some .ifExists) (arguments : Json)
    (child : Node) :
    (r.compile ⟨Template.ifExists.name, arguments, [child]⟩).result
      = if r.knows child.func then (r.compile child).result else .ok .identity := by
  rw [compile_of_find? hr, Template.ifExists_result, compileChildren_eq_map]
  rfl

theorem compile_wrapper_of_length_ne (hr : r.find? Template.ifExists.name = some .ifExists)
    (arguments : Json) {children : List Node} (h : children.length ≠ 1) :
    (r.compile ⟨Template.ifExists.name, arguments, children⟩).result
      = .error (.wrongChildCount Template.ifExists.name "1" children.length) := by
  rw [compile_of_find? hr, Template.ifExists_result, Node.requireChildren, if_neg h]
  rfl

theorem compile_empty (hr : r.find? "compose" = some (Template.group "compose" 0 .compose)) :
    (r.compile (.new "compose" [])).result = .ok (.compose []) := by
  rw [compile_of_find? (n := .new "compose" []) hr]
  rfl

/-- If the children of a node cannot be told from those without wrappers, neither can the node. -/
theorem compile_strip_of_children
    (hcompose : r.find? "compose" = some (Template.group "compose" 0 .compose))
    (hwrapper : r.find? Template.ifExists.name = some .ifExists)
    (huniform : ∀ name t, name ≠ Template.ifExists.name → r.find? name = some t → t.Uniform)
    {func : String} {arguments : Json} {children : List Node}
    (h : List.Forall₂ Child.Alike (r.compileChildren children)
      (r.compileChildren (Node.stripAll r.knows children))) :
    Alike (r.compile ⟨func, arguments, children⟩).result
      (r.compile (Node.strip r.knows ⟨func, arguments, children⟩)).result := by
  by_cases hfunc : func = Template.ifExists.name
  · subst hfunc
    by_cases hlength : children.length = 1
    · obtain ⟨child, rfl⟩ := List.length_eq_one_iff.1 hlength
      rw [compile_wrapper hwrapper, Node.strip_wrapper]
      by_cases hknown : r.knows child.func = true
      · rw [if_pos hknown, if_pos hknown]
        simp only [Node.stripAll, compileChildren_eq_map, List.map_cons] at h
        exact (List.forall₂_cons.1 h).1
      · -- Whatever the unknown child looks like, nobody asks what it compiles to.
        rw [if_neg hknown, if_neg hknown, compile_empty hcompose]
        intro s v
        rw [Operation.apply, Operation.apply, Operation.applyAll]
    · have hlength' : (Node.stripAll r.knows children).length ≠ 1 := by
        rwa [Node.length_stripAll]
      rw [Node.strip_of_length_ne _ _ hlength, compile_wrapper_of_length_ne hwrapper _ hlength,
        compile_wrapper_of_length_ne hwrapper _ hlength', Node.length_stripAll]
      exact rfl
  · rw [Node.strip_of_ne hfunc]
    cases hf : r.find? func with
    | none =>
      rw [compile_of_find?_eq_none hf, compile_of_find?_eq_none hf]
      exact rfl
    | some t =>
      rw [compile_of_find? hf, compile_of_find? hf]
      exact huniform func t hfunc hf _ _ _ _ _ rfl rfl (Node.length_stripAll children).symm h

end

section

variable {ts : List Template}

/-- Templates under names of their own leave the standard ones where they are. -/
theorem find?_extended (hnew : ∀ t ∈ ts, standard.knows t.name = false) {t : Template}
    (ht : t ∈ Template.standard) : (standard.registerAll ts).find? t.name = some t := by
  rw [find?_registerAll_of_forall_ne fun u hu => name_ne_of_knows_eq_false (hnew u hu) ht]
  exact find?_standard ht

theorem uniform_of_find? (huniform : ∀ t ∈ ts, t.Uniform) {name : String} {t : Template}
    (hname : name ≠ Template.ifExists.name)
    (ht : (standard.registerAll ts).find? name = some t) : t.Uniform := by
  rcases mem_or_find?_of_find? ht with hmem | ⟨hstd, -⟩
  · exact huniform t hmem
  · refine Template.uniform_of_mem_standard (mem_standard_of_find? hstd) ?_
    rintro rfl
    exact hname (name_of_find? hstd).symm

mutual

theorem compile_strip_alike (hnew : ∀ t ∈ ts, standard.knows t.name = false)
    (huniform : ∀ t ∈ ts, t.Uniform) : ∀ n : Node,
    Alike ((standard.registerAll ts).compile n).result
      ((standard.registerAll ts).compile (n.strip (standard.registerAll ts).knows)).result
  | ⟨_, _, children⟩ =>
    compile_strip_of_children (find?_extended hnew List.mem_cons_self)
      (find?_extended hnew (by simp [Template.standard]))
      (fun _ _ => uniform_of_find? huniform) (compileChildren_strip_alike hnew huniform children)

theorem compileChildren_strip_alike (hnew : ∀ t ∈ ts, standard.knows t.name = false)
    (huniform : ∀ t ∈ ts, t.Uniform) : ∀ ns : List Node,
    List.Forall₂ Child.Alike ((standard.registerAll ts).compileChildren ns)
      ((standard.registerAll ts).compileChildren
        (Node.stripAll (standard.registerAll ts).knows ns))
  | [] => by
    rw [Node.stripAll]
    exact .nil
  | n :: rest => by
    rw [Node.stripAll]
    exact .cons (compile_strip_alike hnew huniform n)
      (compileChildren_strip_alike hnew huniform rest)

end

/-- **Wrappers can be taken away.** A program compiles exactly when the one without its wrappers
    does. If they fail they have the same fault, and if they do not the two operations have the same
    activity for every value in every scope. -/
theorem compile_strip (hnew : ∀ t ∈ ts, standard.knows t.name = false)
    (huniform : ∀ t ∈ ts, t.Uniform) (n : Node) :
    Alike ((standard.registerAll ts).compile n).result
      ((standard.registerAll ts).compile (n.strip (standard.registerAll ts).knows)).result :=
  compile_strip_alike hnew huniform n

/-- A sequence under a name that is not built in. -/
def inOrder : Template := .group "in_order" 1 .compose

/-- Wrappers in wrappers, below a fan-out and below an operation that is not built in. -/
def wrapped : Node :=
  .new "new_endpoint_pipeline" [
    .new "if_func_exists" [.new "if_func_exists" [.new "unheard_of" [.new "compose" []]]],
    .new "in_order" [.new "if_func_exists" [.new "tcp_connect" []]],
    .new "if_func_exists" [.new "discard" []]]

theorem compile_strip_wrapped :
    (∀ t ∈ [inOrder], standard.knows t.name = false) ∧ (∀ t ∈ [inOrder], t.Uniform) ∧
      wrapped.strip (standard.registerAll [inOrder]).knows = .new "new_endpoint_pipeline" [
        .new "compose" [], .new "in_order" [.new "tcp_connect" []], .new "discard" []] ∧
      Alike ((standard.registerAll [inOrder]).compile wrapped).result
        ((standard.registerAll [inOrder]).compile
          (wrapped.strip (standard.registerAll [inOrder]).knows)).result := by
  have hnew : ∀ t ∈ [inOrder], standard.knows t.name = false := by
    intro t ht
    rw [List.mem_singleton.1 ht]
    rfl
  have huniform : ∀ t ∈ [inOrder], t.Uniform := by
    intro t ht
    rw [List.mem_singleton.1 ht]
    exact Template.uniform_group Operation.congruent_compose
  exact ⟨hnew, huniform, rfl, compile_strip hnew huniform wrapped⟩

end

end Registry

end NetProbe
