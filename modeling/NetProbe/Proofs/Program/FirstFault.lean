import NetProbe.Proofs.Registry.Induction
set_option autoImplicit false

/-! # The first fault of a program

Each node has a check of its own, which does not look into its children (`Node.check`). A program is
gone through node by node, a node before its children and these in order, and some children are left
out (`Node.visited`). The standard registry turns the program into an operation if every node that
is visited passes its check, and otherwise reports what is wrong with the first one that does not:
`Registry.compile_standard_iff`. -/

namespace NetProbe

/-! ## Verdicts -/

/-- What a result says when the value does not matter. -/
def verdict {α : Type} (r : Except CompileError α) : Except CompileError Unit :=
  r.map fun _ => ()

section

variable {α β : Type} {r : Except CompileError α} {e : CompileError}

theorem verdict_bind (f : α → Except CompileError β) :
    verdict (r >>= f) = r >>= fun a => verdict (f a) := by
  cases r <;> rfl

theorem verdict_map (f : α → β) : verdict (r.map f) = verdict r := by
  cases r <;> rfl

theorem verdict_bind_ok (f : α → β) : verdict (r >>= fun a => .ok (f a)) = verdict r := by
  cases r <;> rfl

theorem verdict_eq_ok_iff : verdict r = .ok () ↔ ∃ a, r = .ok a := by
  cases r <;> simp [verdict, Except.map]

theorem verdict_eq_error_iff : verdict r = .error e ↔ r = .error e := by
  cases r <;> simp [verdict, Except.map]

end

namespace Node

/-! ## The check of one node -/

/-- The arguments, as far as an operation without arguments of its own cares for them. -/
def checkNoArguments (n : Node) : Except CompileError Unit :=
  verdict (n.decodeArguments NoArguments.schema)

/-- The arguments, then the lack of children, then the values of the arguments. -/
def checkLeaf {σ α : Type} (n : Node) (schema : Json.Schema σ)
    (validate : σ → Except CompileError α) : Except CompileError Unit := do
  let arguments ← n.decodeArguments schema
  n.requireChildren 0
  verdict (validate arguments)

/-- What is wrong with a node by itself. -/
def check (n : Node) : Except CompileError Unit :=
  match n.func with
  | "compose" => n.checkNoArguments
  | "discard" => n.checkLeaf NoArguments.schema fun a => .ok a
  | "domain_name" => n.checkLeaf DomainArguments.schema fun a => a.validate n.func
  | "dns_lookup_getaddrinfo" => n.checkLeaf NoArguments.schema fun a => .ok a
  | "dns_lookup_parallel" => n.checkNoArguments
  | "dns_lookup_static" => n.checkLeaf StaticLookupArguments.schema fun a => a.validate n.func
  | "dns_lookup_udp" => n.checkLeaf UdpLookupArguments.schema fun a => a.validate n.func
  | "http_transaction" => n.checkLeaf HttpArguments.schema fun a => a.validate n.func
  | "if_func_exists" => n.requireChildren 1
  | "make_endpoints_for_port" => n.checkLeaf EndpointsArguments.schema fun a => .ok a
  | "measure_multiple_domains" => n.checkNoArguments
  | "measure_multiple_endpoints" => n.checkNoArguments
  | "new_endpoint_pipeline" => do
    n.checkNoArguments
    n.requireAtLeast 1
  | "quic_handshake" => n.checkLeaf HandshakeArguments.schema fun a => .ok a
  | "tcp_connect" => n.checkLeaf NoArguments.schema fun a => .ok a
  | "tls_handshake" => n.checkLeaf HandshakeArguments.schema fun a => .ok a
  | func => .error (.unknownOperation func)

/-! ## The nodes that are visited -/

/-- Whether the children of a node are visited: those of the operations that are made of others, and
    an only child that `if_func_exists` knows. -/
def opensChildren (n : Node) : Bool :=
  match n.func, n.children with
  | "compose", _ => true
  | "dns_lookup_parallel", _ => true
  | "measure_multiple_domains", _ => true
  | "measure_multiple_endpoints", _ => true
  | "new_endpoint_pipeline", _ => true
  | "if_func_exists", [child] => Registry.standard.knows child.func
  | _, _ => false

mutual

/-- The nodes that are visited, each before its children. -/
def visited : Node → List Node
  | ⟨func, arguments, children⟩ =>
    ⟨func, arguments, children⟩ ::
      if opensChildren ⟨func, arguments, children⟩ then visitedAll children else []

def visitedAll : List Node → List Node
  | [] => []
  | n :: rest => visited n ++ visitedAll rest

end

theorem visited_eq (n : Node) :
    n.visited = n :: if n.opensChildren then visitedAll n.children else [] := by
  obtain ⟨func, arguments, children⟩ := n
  rw [visited]

end Node

theorem verdict_children_cons (c : Child) (cs : List Child) :
    verdict (Compilation.children (c :: cs)).result =
      verdict c.compiled.result >>= fun _ => verdict (Compilation.children cs).result := by
  rw [Compilation.children]
  cases c.compiled.result with
  | error e => rfl
  | ok op => exact verdict_map _

namespace Template

open Node (opensChildren visitedAll)

/-- Whether the template reports first what is wrong with the node itself, and then what is wrong
    with the nodes below it that are visited. -/
def ReportsFirst (t : Template) : Prop :=
  ∀ n : Node, n.func = t.name →
    verdict (Compilation.children (Registry.standard.compileChildren n.children)).result =
      forM (visitedAll n.children) Node.check →
    verdict (t.compile Registry.standard.knows n
        (Registry.standard.compileChildren n.children)).result =
      forM n.visited Node.check

theorem reportsFirst_leaf {σ α : Type} {name : String} {schema : Json.Schema σ}
    {make : σ → Except CompileError Operation} (validate : σ → Except CompileError α)
    (hmake : ∀ a, verdict (make a) = verdict (validate a))
    (hcheck : ∀ arguments children, Node.check ⟨name, arguments, children⟩ =
      Node.checkLeaf ⟨name, arguments, children⟩ schema validate)
    (hopens : ∀ arguments children, Node.opensChildren ⟨name, arguments, children⟩ = false) :
    (leaf name schema make).ReportsFirst := by
  rintro ⟨func, arguments, children⟩ hn -
  obtain rfl : func = name := hn
  rw [leaf_result, Node.visited_eq, hopens, List.forM_cons, hcheck]
  simp [verdict_bind, Node.checkLeaf, hmake]

theorem reportsFirst_group {name : String} {least : Nat} {make : List Operation → Operation}
    (hcheck : ∀ arguments children, Node.check ⟨name, arguments, children⟩ = do
      Node.checkNoArguments ⟨name, arguments, children⟩
      Node.requireAtLeast ⟨name, arguments, children⟩ least)
    (hopens : ∀ arguments children, Node.opensChildren ⟨name, arguments, children⟩ = true) :
    (group name least make).ReportsFirst := by
  rintro ⟨func, arguments, children⟩ hn hchildren
  obtain rfl : func = name := hn
  rw [group_result, Node.visited_eq, hopens, List.forM_cons, hcheck, if_pos rfl, ← hchildren]
  simp only [verdict_bind, verdict_map, bind_assoc, Node.checkNoArguments]
  -- On both sides the decoded arguments are dropped.
  cases Node.decodeArguments NoArguments.schema ⟨func, arguments, children⟩ <;> rfl

/-- Any number of children is at least zero. -/
theorem reportsFirst_anyGroup {name : String} {make : List Operation → Operation}
    (hcheck : ∀ arguments children, Node.check ⟨name, arguments, children⟩ =
      Node.checkNoArguments ⟨name, arguments, children⟩)
    (hopens : ∀ arguments children, Node.opensChildren ⟨name, arguments, children⟩ = true) :
    (group name 0 make).ReportsFirst := by
  refine reportsFirst_group (fun arguments children => ?_) hopens
  rw [hcheck, Node.checkNoArguments]
  cases Node.decodeArguments NoArguments.schema ⟨name, arguments, children⟩ <;> rfl

theorem reportsFirst_ifExists : ifExists.ReportsFirst := by
  rintro ⟨func, arguments, children⟩ hn hchildren
  obtain rfl : func = "if_func_exists" := hn
  rw [ifExists_result, Node.visited_eq, List.forM_cons]
  change verdict (Node.requireChildren ⟨"if_func_exists", arguments, children⟩ 1 >>= _) =
    Node.requireChildren ⟨"if_func_exists", arguments, children⟩ 1 >>= _
  rw [verdict_bind]
  match children with
  | [] => rfl
  | _ :: _ :: _ => rfl
  | [child] =>
    have hone : verdict (Registry.standard.compile child).result =
        forM (visitedAll [child]) Node.check := by
      rw [← hchildren, Registry.compileChildren, verdict_children_cons]
      cases (Registry.standard.compile child).result <;> rfl
    change verdict (if Registry.standard.knows child.func then _ else .ok Operation.identity) =
      forM (if Registry.standard.knows child.func then _ else []) Node.check
    split
    · exact hone
    · rfl

theorem reportsFirst_of_mem_standard {t : Template} (ht : t ∈ standard) : t.ReportsFirst := by
  have plain {σ : Type} {name : String} {schema : Json.Schema σ} {make : σ → Operation} :=
    @reportsFirst_leaf σ σ name schema (fun a => .ok (make a)) (fun a => .ok a) fun _ => rfl
  simp only [standard, List.mem_cons, List.not_mem_nil, or_false] at ht
  rcases ht with rfl | rfl | rfl | rfl | rfl | rfl | rfl | rfl | rfl | rfl | rfl | rfl | rfl |
    rfl | rfl | rfl
  · exact reportsFirst_anyGroup (fun _ _ => rfl) fun _ _ => rfl
  · exact plain (fun _ _ => rfl) fun _ _ => rfl
  · exact reportsFirst_leaf (fun a => a.validate _) (fun _ => verdict_bind_ok _) (fun _ _ => rfl)
      fun _ _ => rfl
  · exact plain (fun _ _ => rfl) fun _ _ => rfl
  · exact reportsFirst_anyGroup (fun _ _ => rfl) fun _ _ => rfl
  · exact reportsFirst_leaf (fun a => a.validate _) (fun _ => verdict_bind_ok _) (fun _ _ => rfl)
      fun _ _ => rfl
  · exact reportsFirst_leaf (fun a => a.validate _) (fun _ => verdict_bind_ok _) (fun _ _ => rfl)
      fun _ _ => rfl
  · exact reportsFirst_leaf (fun a => a.validate _) (fun _ => verdict_bind_ok _) (fun _ _ => rfl)
      fun _ _ => rfl
  · exact reportsFirst_ifExists
  · exact plain (fun _ _ => rfl) fun _ _ => rfl
  · exact reportsFirst_anyGroup (fun _ _ => rfl) fun _ _ => rfl
  · exact reportsFirst_anyGroup (fun _ _ => rfl) fun _ _ => rfl
  · exact reportsFirst_group (fun _ _ => rfl) fun _ _ => rfl
  · exact plain (fun _ _ => rfl) fun _ _ => rfl
  · exact plain (fun _ _ => rfl) fun _ _ => rfl
  · exact plain (fun _ _ => rfl) fun _ _ => rfl

end Template

namespace Registry

theorem check_eq_of_find?_eq_none {n : Node} (h : standard.find? n.func = none) :
    n.check = .error (.unknownOperation n.func) := by
  have hne : ∀ name ∈ Template.standard.map Template.name, n.func ≠ name := by
    intro name hname heq
    obtain ⟨t, ht, rfl⟩ := List.mem_map.1 hname
    rw [heq, find?_standard ht] at h
    cases h
  unfold Node.check
  split
  -- The last case is that of any other name.
  iterate 16
    · next heq => exact absurd heq (hne _ (by decide))
  · rfl

mutual

/-- The induction is on the program: what is wrong with it is what is wrong with the first node that
    is visited and fails its check. -/
theorem verdict_compile : ∀ n : Node,
    verdict (standard.compile n).result = forM n.visited Node.check
  | ⟨func, arguments, children⟩ => by
    cases hfind : standard.find? func with
    | none =>
      rw [compile_of_find?_eq_none hfind, Node.visited, List.forM_cons,
        check_eq_of_find?_eq_none hfind]
      rfl
    | some t =>
      rw [compile_of_find? hfind]
      exact Template.reportsFirst_of_mem_standard (mem_standard_of_find? hfind) _
        (name_of_find? hfind).symm (verdict_compileChildren children)

theorem verdict_compileChildren : ∀ ns : List Node,
    verdict (Compilation.children (standard.compileChildren ns)).result =
      forM (Node.visitedAll ns) Node.check
  | [] => rfl
  | n :: rest => by
    rw [Node.visitedAll, List.forM_append, ← verdict_compile n, ← verdict_compileChildren rest,
      compileChildren, verdict_children_cons]

end

/-- A program becomes an operation if every node that is visited passes its check, and is otherwise
    refused for the first that does not. -/
theorem compile_standard_iff (n : Node) :
    ((∃ op, (standard.compile n).result = .ok op) ↔ ∀ m ∈ n.visited, m.check = .ok ()) ∧
    ∀ e, (standard.compile n).result = .error e ↔ ∃ before m after,
      n.visited = before ++ m :: after ∧ (∀ k ∈ before, k.check = .ok ()) ∧
        m.check = .error e := by
  refine ⟨?_, fun e => ?_⟩
  · rw [← verdict_eq_ok_iff, verdict_compile, forM_eq_ok_iff]
  · rw [← verdict_eq_error_iff, verdict_compile, forM_eq_error_iff]

end Registry

end NetProbe
