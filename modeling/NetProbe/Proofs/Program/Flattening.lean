import Mathlib.Data.List.Chain
import Mathlib.Logic.Relation
import NetProbe.Proofs.Program.Pieces
import NetProbe.Proofs.Program.Wrapper
set_option autoImplicit false

/-! # Sequences in sequences

Nobody can tell a sequence of sequences from one sequence. The builder puts the one together exactly
if it does the other, with the same kinds, because it looks at neighbours only
(`Piece.exists_composed_iff`, `Piece.composed_kinds`). And if a program compiles that has a sequence
in a sequence, or in a pipeline, the program with the children in place of the inner sequence
compiles to an operation with the same activities (`Node.Flattens.matched`, by induction on where in
the program it is). Not the other way round: the arguments of a sequence are checked too. -/

namespace NetProbe

/-! ## In the builder -/

namespace Piece

/-- The second piece takes what the first one gives. -/
def Fits (p q : Piece) : Prop :=
  p.output.main = q.input.main

/-- The piece takes what the first of some pieces takes, and gives what the last of them gives. -/
structure Spans (ps : List Piece) (p : Piece) : Prop where
  input : ps.head?.map Piece.input = some p.input
  output : ps.getLast?.map Piece.output = some p.output

theorem checkSequence_eq_ok_iff {ps : List Piece} :
    checkSequence ps = .ok () ↔ ps.IsChain Fits := by
  match ps with
  | [] => simp [checkSequence]
  | [p] => simp [checkSequence]
  | p :: q :: rest =>
    rw [checkSequence, List.isChain_cons_cons, ← checkSequence_eq_ok_iff, Fits]
    split <;> simp_all

theorem exists_compose_iff {ps : List Piece} :
    (∃ p, compose ps = .ok p) ↔ ps ≠ [] ∧ ps.IsChain Fits := by
  rw [← checkSequence_eq_ok_iff]
  cases ps with
  | nil => simp [compose]
  | cons p rest =>
    rw [compose, exists_map_eq_ok_iff, exists_unit_eq_ok_iff]
    simp only [ne_eq, reduceCtorEq, not_false_eq_true, true_and]

theorem isChain_of_compose {ps : List Piece} {p : Piece} (h : compose ps = .ok p) :
    ps.IsChain Fits :=
  (exists_compose_iff.1 ⟨p, h⟩).2

theorem spans_of_compose {ps : List Piece} {p : Piece} (h : compose ps = .ok p) : Spans ps p := by
  obtain ⟨first, rest, rfl, -, rfl⟩ := compose_eq_ok h
  refine ⟨rfl, ?_⟩
  rw [List.getLast?_cons]
  rfl

section Groups

variable {gs : List (List Piece)} {qs : List Piece}

/-- Sequences fit one after the other when the pieces do where they meet. -/
theorem isChain_spans_iff (h : List.Forall₂ Spans gs qs) :
    qs.IsChain Fits ↔
      gs.IsChain fun g g' => ∀ p ∈ g.getLast?, ∀ q ∈ g'.head?, Fits p q := by
  induction h with
  | nil => simp
  | @cons g q gs qs hg hrest ih =>
    cases hrest with
    | nil => simp
    | @cons g' q' gs qs hg' _ =>
      rw [List.isChain_cons_cons, List.isChain_cons_cons, ih]
      refine and_congr_left fun _ => ?_
      obtain ⟨last, hlast, houtput⟩ := Option.map_eq_some_iff.1 hg.output
      obtain ⟨first, hfirst, hinput⟩ := Option.map_eq_some_iff.1 hg'.input
      simp only [hlast, hfirst, Option.mem_some_iff, forall_eq', Fits, houtput, hinput]

theorem spans_flatten (h : List.Forall₂ Spans gs qs) :
    gs.flatten.head?.map Piece.input = qs.head?.map Piece.input ∧
      gs.flatten.getLast?.map Piece.output = qs.getLast?.map Piece.output := by
  induction h with
  | nil => exact ⟨rfl, rfl⟩
  | @cons g q gs qs hg _ ih =>
    obtain ⟨-, houtput⟩ := ih
    rw [List.flatten_cons, List.head?_append, List.getLast?_append, Option.map_or, Option.map_or,
      hg.input, hg.output, houtput]
    refine ⟨rfl, ?_⟩
    rw [List.getLast?_cons]
    cases qs.getLast? <;> rfl

/-- Groups without an empty one have no pieces only if there are none. -/
theorem flatten_eq_nil_iff (hgs : ∀ g ∈ gs, g ≠ []) : gs.flatten = [] ↔ gs = [] := by
  rw [List.flatten_eq_nil_iff]
  constructor
  · intro h
    exact List.eq_nil_iff_forall_not_mem.2 fun g hg => hgs g hg (h g hg)
  · rintro rfl
    simp

theorem exists_composed_iff (hgs : ∀ g ∈ gs, g ≠ []) :
    (∃ p, (gs.mapM compose >>= compose) = .ok p) ↔ ∃ q, compose gs.flatten = .ok q := by
  have hnil : [] ∉ gs := fun h => hgs [] h rfl
  have hmeet {qs : List Piece} (hqs : gs.mapM compose = .ok qs) :
      qs.IsChain Fits ↔ gs.IsChain fun g g' => ∀ p ∈ g.getLast?, ∀ q ∈ g'.head?, Fits p q :=
    isChain_spans_iff ((mapM_eq_ok_iff.1 hqs).imp fun _ _ => spans_of_compose)
  have hempty {qs : List Piece} (hqs : gs.mapM compose = .ok qs) : qs = [] ↔ gs = [] := by
    rw [← List.length_eq_zero_iff, ← (mapM_eq_ok_iff.1 hqs).length_eq, List.length_eq_zero_iff]
  rw [exists_compose_iff, Ne, flatten_eq_nil_iff hgs, List.isChain_flatten hnil]
  constructor
  · rintro ⟨p, hp⟩
    obtain ⟨qs, hqs, hcompose⟩ := bind_eq_ok_iff.1 hp
    obtain ⟨hne, hchain⟩ := exists_compose_iff.1 ⟨p, hcompose⟩
    refine ⟨fun h => hne ((hempty hqs).2 h), fun g hg => ?_, (hmeet hqs).1 hchain⟩
    obtain ⟨q, hq⟩ := exists_mapM_eq_ok_iff.1 ⟨qs, hqs⟩ g hg
    exact isChain_of_compose hq
  · rintro ⟨hne, hinner, hchain⟩
    obtain ⟨qs, hqs⟩ : ∃ qs, gs.mapM compose = .ok qs :=
      exists_mapM_eq_ok_iff.2 fun g hg => exists_compose_iff.2 ⟨hgs g hg, hinner g hg⟩
    obtain ⟨p, hp⟩ := exists_compose_iff.2
      ⟨fun h => hne ((hempty hqs).1 h), (hmeet hqs).2 hchain⟩
    exact ⟨p, bind_eq_ok_iff.2 ⟨qs, hqs, hp⟩⟩

/-- Both take what the first piece takes and give what the last one gives. -/
theorem composed_kinds {p q : Piece} (hp : (gs.mapM compose >>= compose) = .ok p)
    (hq : compose gs.flatten = .ok q) : p.input = q.input ∧ p.output = q.output := by
  obtain ⟨qs, hqs, hp⟩ := bind_eq_ok_iff.1 hp
  obtain ⟨hinput, houtput⟩ :=
    spans_flatten ((mapM_eq_ok_iff.1 hqs).imp fun _ _ => spans_of_compose)
  have houter := spans_of_compose hp
  have hflat := spans_of_compose hq
  rw [houter.input, hflat.input] at hinput
  rw [houter.output, hflat.output] at houtput
  exact ⟨(Option.some.inj hinput).symm, (Option.some.inj houtput).symm⟩

end Groups

end Piece

/-! ## Sequences of operations -/

theorem Activity.bind_assoc (f g : Value → Activity) :
    ∀ p : Activity, (p.bind f).bind g = p.bind fun v => (f v).bind g
  | .done _ => rfl
  | .perform e next =>
    congrArg (perform e) (funext fun answer => bind_assoc f g (next answer))
  | .pool width running waiting finished next =>
    congrArg (pool width running waiting finished) (funext fun vs => bind_assoc f g (next vs))

namespace Operation

variable {s : Scope}

theorem applyAll_append (ops ops' : List Operation) (v : Value) :
    applyAll s (ops ++ ops') v = (applyAll s ops v).bind (applyAll s ops') := by
  induction ops generalizing v with
  | nil => rfl
  | cons op ops ih =>
    have hrest : applyAll s (ops ++ ops') = fun w => (applyAll s ops w).bind (applyAll s ops') :=
      funext ih
    rw [List.cons_append, applyAll, applyAll, hrest, Activity.bind_assoc]

/-- A sequence does the same as the operations in it. -/
theorem applyAll_flatten (first inside last : List Operation) :
    applyAll s (first ++ .compose inside :: last) = applyAll s (first ++ inside ++ last) := by
  funext v
  have hlast : applyAll s (.compose inside :: last) = applyAll s (inside ++ last) := by
    funext w
    rw [applyAll, apply, applyAll_append]
  rw [applyAll_append, hlast, ← applyAll_append, List.append_assoc]

/-- A way to make an operation of operations that cannot tell a sequence from what is in it. -/
def Flat (make : List Operation → Operation) : Prop :=
  ∀ first inside last,
    (make (first ++ .compose inside :: last)).Same (make (first ++ inside ++ last))

theorem flat_compose : Flat .compose := by
  intro first inside last s v
  rw [apply, apply, applyAll_flatten]

theorem flat_endpointPipeline : Flat .endpointPipeline := by
  intro first inside last s v
  simp only [apply, applyAll_flatten]

end Operation

/-! ## In programs -/

/-- If there is an operation, so there is on the other side, with the same activities. -/
def MatchedBy (r q : Except CompileError Operation) : Prop :=
  ∀ op, r = .ok op → ∃ op', q = .ok op' ∧ op.Same op'

theorem MatchedBy.of_eq {r q : Except CompileError Operation} (h : r = q) : MatchedBy r q :=
  fun op hop => ⟨op, h ▸ hop, fun _ _ => rfl⟩

theorem MatchedBy.trans {r q p : Except CompileError Operation} (h : MatchedBy r q)
    (h' : MatchedBy q p) : MatchedBy r p := by
  intro op hop
  obtain ⟨op', hop', hsame⟩ := h op hop
  obtain ⟨op'', hop'', hsame'⟩ := h' op' hop'
  exact ⟨op'', hop'', fun s v => (hsame s v).trans (hsame' s v)⟩

/-- A child of the same name that compiles if the first one does. -/
structure Child.MatchedBy (c d : Child) : Prop where
  func : c.func = d.func
  compiled : NetProbe.MatchedBy c.compiled.result d.compiled.result

theorem Compilation.children_matched {cs ds : List Child} (h : List.Forall₂ Child.MatchedBy cs ds)
    {ops : List Operation} (hops : (Compilation.children cs).result = .ok ops) :
    ∃ ops', (Compilation.children ds).result = .ok ops' ∧ List.Forall₂ Operation.Same ops ops' := by
  simp only [children_result, mapM_eq_ok_iff] at hops ⊢
  induction h generalizing ops with
  | nil =>
    cases hops
    exact ⟨[], .nil, .nil⟩
  | cons hcd _ ih =>
    cases hops with
    | cons hop hops =>
      obtain ⟨op', hop', hsame⟩ := hcd.compiled _ hop
      obtain ⟨ops', hops', hsame'⟩ := ih hops
      exact ⟨op' :: ops', .cons hop' hops', .cons hsame hsame'⟩

namespace Template

/-- A node of the template compiles if it did before its children were replaced by matching ones. -/
def Monotone (t : Template) : Prop :=
  ∀ known (n m : Node) (cs ds : List Child), n.func = m.func → n.arguments = m.arguments →
    n.children.length = m.children.length → List.Forall₂ Child.MatchedBy cs ds →
    MatchedBy (t.compile known n cs).result (t.compile known m ds).result

theorem monotone_leaf {σ : Type} (name : String) (schema : Json.Schema σ)
    (make : σ → Except CompileError Operation) : (leaf name schema make).Monotone := by
  intro known n m cs ds hfunc harguments hlength _
  refine MatchedBy.of_eq ?_
  rw [leaf_result, leaf_result, Node.decodeArguments_congr schema hfunc harguments,
    Node.requireChildren_congr 0 hfunc hlength]

theorem monotone_group {name : String} {least : Nat} {make : List Operation → Operation}
    (hmake : Operation.Congruent make) : (group name least make).Monotone := by
  intro known n m cs ds hfunc harguments hlength hcs op hop
  obtain ⟨hdecode, hleast, ops, hops, rfl⟩ := group_eq_ok_iff.1 hop
  obtain ⟨ops', hops', hsame⟩ := Compilation.children_matched hcs hops
  refine ⟨make ops', group_eq_ok_iff.2 ⟨?_, hlength ▸ hleast, ops', hops', rfl⟩,
    hmake ops ops' hsame⟩
  rwa [← Node.decodeArguments_congr _ hfunc harguments]

theorem monotone_ifExists : ifExists.Monotone := by
  intro known n m cs ds hfunc _ hlength hcs
  simp only [ifExists_result, Node.requireChildren_congr 1 hfunc hlength]
  intro op hop
  obtain ⟨u, hcount, hop⟩ := bind_eq_ok_iff.1 hop
  rw [hcount, ok_bind]
  cases hcs with
  | nil => exact ⟨op, hop, fun _ _ => rfl⟩
  | @cons c d _ _ hcd hrest =>
    cases hrest with
    | cons => exact ⟨op, hop, fun _ _ => rfl⟩
    | nil =>
      -- Whether the child is known depends on its name only, which stays the same.
      simp only [← hcd.func]
      by_cases hknown : known c.func = true
      · simp only [if_pos hknown] at hop ⊢
        exact hcd.compiled op hop
      · simp only [if_neg hknown] at hop ⊢
        exact ⟨op, hop, fun _ _ => rfl⟩

theorem monotone_of_mem_standard {t : Template} (ht : t ∈ standard) : t.Monotone :=
  standard_cases (fun _ _ _ => monotone_leaf _ _ _) (fun _ _ _ h => monotone_group h)
    monotone_ifExists ht

end Template

namespace Registry

/-- What the standard registry compiles a node to that takes no arguments and at least so many
    children. -/
theorem compile_group_eq_ok_iff {name : String} {least : Nat} {make : List Operation → Operation}
    (ht : Template.group name least make ∈ Template.standard) {arguments : Json}
    {children : List Node} {op : Operation} :
    (standard.compile ⟨name, arguments, children⟩).result = .ok op ↔
      (∃ a, Node.decodeArguments NoArguments.schema ⟨name, arguments, children⟩ = .ok a) ∧
        least ≤ children.length ∧
        ∃ ops, (children.mapM fun n => (standard.compile n).result) = .ok ops ∧ make ops = op := by
  rw [compile_of_find? (find?_standard ht), Template.group_eq_ok_iff, Compilation.children_result,
    compileChildren_eq_map, List.mapM_map]
  rfl

theorem compose_mem_standard : Template.group "compose" 0 .compose ∈ Template.standard := by
  simp [Template.standard]

theorem endpointPipeline_mem_standard :
    Template.group "new_endpoint_pipeline" 1 .endpointPipeline ∈ Template.standard := by
  simp [Template.standard]

section

variable {before cs after : List Node} {inner : Json}

/-- The operations of children with a sequence among them, and of those with the children of the
    sequence in its place. -/
theorem mapM_compile_flattened {ops : List Operation}
    (h : ((before ++ ⟨"compose", inner, cs⟩ :: after).mapM fun n => (standard.compile n).result)
      = .ok ops) :
    ∃ first inside last, ops = first ++ .compose inside :: last ∧
      ((before ++ cs ++ after).mapM fun n => (standard.compile n).result)
        = .ok (first ++ inside ++ last) := by
  simp only [List.mapM_append, List.mapM_cons, bind_eq_ok_iff] at h
  obtain ⟨first, hfirst, _, ⟨op, hop, last, hlast, hops⟩, hall⟩ := h
  cases hops
  cases hall
  obtain ⟨-, -, inside, hinside, rfl⟩ := (compile_group_eq_ok_iff compose_mem_standard).1 hop
  refine ⟨first, inside, last, rfl, ?_⟩
  simp only [List.mapM_append, hfirst, hinside, hlast, ok_bind]
  rfl

theorem matched_of_flat {name : String} {least : Nat} {make : List Operation → Operation}
    (ht : Template.group name least make ∈ Template.standard) (hmake : Operation.Flat make)
    {arguments : Json} (hleast : least ≤ (before ++ cs ++ after).length) :
    MatchedBy (standard.compile ⟨name, arguments, before ++ ⟨"compose", inner, cs⟩ :: after⟩).result
      (standard.compile ⟨name, arguments, before ++ cs ++ after⟩).result := by
  intro op hop
  obtain ⟨hdecode, -, ops, hops, rfl⟩ := (compile_group_eq_ok_iff ht).1 hop
  obtain ⟨first, inside, last, rfl, hflat⟩ := mapM_compile_flattened hops
  exact ⟨_, (compile_group_eq_ok_iff ht).2 ⟨hdecode, hleast, _, hflat, rfl⟩,
    hmake first inside last⟩

theorem matched_below {n m : Node} (hfunc : n.func = m.func)
    (h : MatchedBy (standard.compile n).result (standard.compile m).result) (func : String)
    (arguments : Json) (before after : List Node) :
    MatchedBy (standard.compile ⟨func, arguments, before ++ n :: after⟩).result
      (standard.compile ⟨func, arguments, before ++ m :: after⟩).result := by
  cases hf : standard.find? func with
  | none =>
    rw [compile_of_find?_eq_none hf]
    exact nofun
  | some t =>
    rw [compile_of_find? hf, compile_of_find? hf]
    refine Template.monotone_of_mem_standard (mem_standard_of_find? hf) _ _ _ _ _ rfl rfl
      (by simp only [List.length_append, List.length_cons]) ?_
    have hsame (ns : List Node) :
        List.Forall₂ Child.MatchedBy (standard.compileChildren ns) (standard.compileChildren ns) :=
      List.forall₂_same.2 fun c _ => ⟨rfl, .of_eq rfl⟩
    simp only [compileChildren_eq_map, List.map_append, List.map_cons] at hsame ⊢
    exact List.rel_append (hsame before) (.cons ⟨hfunc, h⟩ (hsame after))

end

end Registry

namespace Node

/-- The one program is the other one with the children of a sequence in place of the sequence,
    somewhere in a sequence, or in a pipeline if it has any. -/
inductive Flattens : Node → Node → Prop
  | sequence (arguments inner : Json) (before cs after : List Node) :
    Flattens ⟨"compose", arguments, before ++ ⟨"compose", inner, cs⟩ :: after⟩
      ⟨"compose", arguments, before ++ cs ++ after⟩
  | pipeline (arguments inner : Json) (before cs after : List Node) (hcs : cs ≠ []) :
    Flattens ⟨"new_endpoint_pipeline", arguments, before ++ ⟨"compose", inner, cs⟩ :: after⟩
      ⟨"new_endpoint_pipeline", arguments, before ++ cs ++ after⟩
  | deeper {n m : Node} (func : String) (arguments : Json) (before after : List Node)
      (h : Flattens n m) :
    Flattens ⟨func, arguments, before ++ n :: after⟩ ⟨func, arguments, before ++ m :: after⟩

theorem Flattens.func_eq {n m : Node} (h : Flattens n m) : n.func = m.func := by
  cases h <;> rfl

theorem Flattens.matched {n m : Node} (h : Flattens n m) :
    MatchedBy (Registry.standard.compile n).result (Registry.standard.compile m).result := by
  induction h with
  | sequence =>
    exact Registry.matched_of_flat Registry.compose_mem_standard Operation.flat_compose
      (Nat.zero_le _)
  | pipeline _ _ _ _ _ hcs =>
    refine Registry.matched_of_flat Registry.endpointPipeline_mem_standard
      Operation.flat_endpointPipeline ?_
    have := List.length_pos_of_ne_nil hcs
    simp only [List.length_append]
    omega
  | deeper func arguments before after hnm ih =>
    exact Registry.matched_below hnm.func_eq ih func arguments before after

theorem matched_of_reflTransGen {n m : Node} (h : Relation.ReflTransGen Flattens n m) :
    MatchedBy (Registry.standard.compile n).result (Registry.standard.compile m).result := by
  induction h with
  | refl => exact .of_eq rfl
  | tail _ hstep ih => exact ih.trans hstep.matched

end Node

/-- **Sequences flatten.** Pieces in non-empty groups can be put together group by group exactly if
    they can at once, and the kinds are the same. A program in which sequences were replaced by
    their children compiles if the program did, to an operation with the same activity for every
    value in every scope. -/
theorem sequences_flatten :
    (∀ gs : List (List Piece), (∀ g ∈ gs, g ≠ []) →
      ((∃ p, (gs.mapM Piece.compose >>= Piece.compose) = .ok p)
          ↔ ∃ q, Piece.compose gs.flatten = .ok q) ∧
        ∀ p q, (gs.mapM Piece.compose >>= Piece.compose) = .ok p →
          Piece.compose gs.flatten = .ok q → p.input = q.input ∧ p.output = q.output) ∧
      ∀ n m op, Relation.ReflTransGen Node.Flattens n m →
        (Registry.standard.compile n).result = .ok op →
        ∃ op', (Registry.standard.compile m).result = .ok op' ∧
          ∀ s v, op.apply s v = op'.apply s v :=
  ⟨fun _ hgs => ⟨Piece.exists_composed_iff hgs, fun _ _ => Piece.composed_kinds⟩,
    fun _ _ op h hop => Node.matched_of_reflTransGen h op hop⟩

/-- Groups of one piece and of two. -/
def handshakeGroups : List (List Piece) :=
  [[.tcpConnect], [.tlsHandshake {}, .discard Kind.tlsConnection], [.discard Kind.void]]

/-- A sequence in a pipeline, with an empty sequence in it, below a wrapper. -/
def nestedConnect : Node :=
  .new "if_func_exists" [.new "new_endpoint_pipeline" [
    .new "compose" [.new "tcp_connect" [], .new "compose" []], .new "discard" []]]

def flatConnect : Node :=
  .new "if_func_exists" [.new "new_endpoint_pipeline" [.new "tcp_connect" [], .new "discard" []]]

theorem nestedConnect_flattens : Relation.ReflTransGen Node.Flattens nestedConnect flatConnect := by
  have hinner : Node.Flattens (.new "compose" [.new "tcp_connect" [], .new "compose" []])
      (.new "compose" [.new "tcp_connect" []]) :=
    .sequence (.object []) (.object []) [.new "tcp_connect" []] [] []
  have houter : Node.Flattens
      (.new "new_endpoint_pipeline" [.new "compose" [.new "tcp_connect" []], .new "discard" []])
      (.new "new_endpoint_pipeline" [.new "tcp_connect" [], .new "discard" []]) :=
    .pipeline (.object []) (.object []) [] [.new "tcp_connect" []] [.new "discard" []] nofun
  refine .tail (.single (.deeper _ _ [] [] (.deeper _ _ [] [.new "discard" []] hinner))) ?_
  exact .deeper _ _ [] [] houter

theorem sequences_flatten_connect :
    (∃ p q, (handshakeGroups.mapM Piece.compose >>= Piece.compose) = .ok p ∧
        Piece.compose handshakeGroups.flatten = .ok q ∧
        p.input = Kind.endpoint ∧ q.input = p.input ∧ p.output = Kind.void ∧ q.output = p.output) ∧
      ∃ op op', (Registry.standard.compile nestedConnect).result = .ok op ∧
        (Registry.standard.compile flatConnect).result = .ok op' ∧
        ∀ s v, op.apply s v = op'.apply s v := by
  have hgs : ∀ g ∈ handshakeGroups, g ≠ [] := by decide
  obtain ⟨hiff, hkinds⟩ := sequences_flatten.1 handshakeGroups hgs
  obtain ⟨q, hq, hinput, houtput⟩ : ∃ q, Piece.compose handshakeGroups.flatten = .ok q ∧
      q.input = Kind.endpoint ∧ q.output = Kind.void := ⟨_, rfl, rfl, rfl⟩
  obtain ⟨p, hp⟩ := hiff.2 ⟨q, hq⟩
  obtain ⟨hin, hout⟩ := hkinds p q hp hq
  obtain ⟨op, hop⟩ : ∃ op, (Registry.standard.compile nestedConnect).result = .ok op := ⟨_, rfl⟩
  obtain ⟨op', hop', hsame⟩ := sequences_flatten.2 _ _ op nestedConnect_flattens hop
  exact ⟨⟨p, q, hp, hq, hin.trans hinput, hin.symm, hout.trans houtput, hout.symm⟩,
    op, op', hop, hop', hsame⟩

end NetProbe
