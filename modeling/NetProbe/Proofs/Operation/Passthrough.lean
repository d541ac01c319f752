import NetProbe.Proofs.Registry.Induction
import NetProbe.Run.Schedule
set_option autoImplicit false

/-! # Sentinels pass through

A failure, an exception and the skip mark come out of every compiled operation as they went in,
without any effect: the activity of the operation is finished before it starts. Each constructor of
operations hands sentinels on by itself, so this is an induction over the program,
`Registry.passes_of_compile`. It survives operations that are not built in as long as they are made
by `Operation.adapt`. -/

namespace NetProbe

/-- An operation that is not built in and takes values of one kind. -/
def Operation.adapt {α : Type} (name : String) (accept : Value → Option α)
    (call : Scope → α → Activity) : Operation :=
  .custom fun s v => typed name accept (call s) v

/-- Whether all operations that a template makes are adapted ones. -/
def Template.Adapted (t : Template) : Prop :=
  ∀ known n cs op, (t.compile known n cs).result = .ok op →
    ∃ (α : Type) (name : String) (accept : Value → Option α) (call : Scope → α → Activity),
      op = .adapt name accept call

/-- An operation that does nothing with sentinels. -/
def Operation.Passes (op : Operation) : Prop :=
  ∀ s v, v.isSentinel = true → op.apply s v = .done v

theorem typed_of_isSentinel {α : Type} {name : String} {accept : Value → Option α}
    {call : α → Activity} {v : Value} (hv : v.isSentinel = true) :
    typed name accept call v = .done v := by
  rw [typed, if_pos hv]

theorem Leaf.apply_of_isSentinel (s : Scope) (l : Leaf) {v : Value} (hv : v.isSentinel = true) :
    l.apply s v = .done v := by
  cases l <;> exact typed_of_isSentinel hv

/-- An activity without effects that ends at once leaves everything as it is. -/
theorem Surroundings.run_done (e : Surroundings) (moments : Nat) (v : Value) (w : World) :
    e.run moments (.done v) w = some (v, w) := by
  simp only [Surroundings.run, advance]
  cases moments <;> rfl

namespace Operation

theorem applyAll_of_passes (s : Scope) {ops : List Operation} (h : ∀ op ∈ ops, op.Passes)
    {v : Value} (hv : v.isSentinel = true) : applyAll s ops v = .done v := by
  induction ops with
  | nil => rw [applyAll]
  | cons op ops ih =>
    have hop : op.apply s v = .done v := h op List.mem_cons_self s v hv
    have hops : applyAll s ops v = .done v := ih fun o ho => h o (List.mem_cons_of_mem op ho)
    rw [applyAll, hop]
    exact hops

theorem passes_adapt {α : Type} {name : String} {accept : Value → Option α}
    {call : Scope → α → Activity} : (adapt name accept call).Passes := by
  intro s v hv
  rw [adapt, apply]
  exact typed_of_isSentinel hv

theorem hereditary_passes : Hereditary Passes where
  identity := by
    intro s v _
    rw [apply]
  discard := by
    intro s v hv
    rw [apply, if_pos hv]
  leaf := by
    intro l s v hv
    rw [apply]
    exact l.apply_of_isSentinel s hv
  compose := by
    intro ops h s v hv
    rw [apply]
    exact applyAll_of_passes s h hv
  lookupParallel := by
    intro ops _ s v hv
    rw [apply]
    exact typed_of_isSentinel hv
  measureDomains := by
    intro ops _ s v hv
    rw [apply]
    exact typed_of_isSentinel hv
  measureEndpoints := by
    intro ops _ s v hv
    rw [apply]
    exact typed_of_isSentinel hv
  endpointPipeline := by
    intro ops _ s v hv
    rw [apply]
    exact typed_of_isSentinel hv

end Operation

theorem Registry.passes_of_compile {ts : List Template} (hts : ∀ t ∈ ts, t.Adapted) {n : Node}
    {op : Operation} (hop : ((standard.registerAll ts).compile n).result = .ok op) :
    op.Passes := by
  refine compile_induction (fun name t ht => ?_) n op hop
  rcases mem_or_find?_of_find? ht with hmem | ⟨hstd, -⟩
  · intro known m cs o _ ho
    obtain ⟨α, name, accept, call, rfl⟩ := hts t hmem known m cs o ho
    exact Operation.passes_adapt
  · exact Template.keeps_of_mem_standard Operation.hereditary_passes (mem_standard_of_find? hstd)

/-- Whatever a registry with adapted operations compiles gives a sentinel back as it is, and leaves
    the session, the clock and the network alone: the activity has no effects at all. -/
theorem Operation.sentinel_unchanged {ts : List Template} (hts : ∀ t ∈ ts, t.Adapted) {n : Node}
    {op : Operation} (hop : ((Registry.standard.registerAll ts).compile n).result = .ok op)
    {v : Value} (hv : v.isSentinel = true) (s : Scope) :
    op.apply s v = .done v ∧
      ∀ (e : Surroundings) (moments : Nat) (w : World),
        e.run moments (op.apply s v) w = some (v, w) := by
  have h : op.apply s v = .done v := Registry.passes_of_compile hts hop s v hv
  refine ⟨h, fun e moments w => ?_⟩
  rw [h]
  exact e.run_done moments v w

/-- An operation that is not built in and changes nothing. -/
def Operation.mark : Operation :=
  .adapt "mark" Value.endpoint? fun _ e => .done (.endpoint e)

def Template.mark : Template where
  name := "mark"
  compile := fun _ _ _ => .ok .mark

/-- A program with a fan-out, an operation of its own and one that nobody knows. -/
def Node.marked : Node :=
  .new "compose" [
    .new "new_endpoint_pipeline" [.new "mark" [], .new "tcp_connect" [], .new "discard" []],
    .new "if_func_exists" [.new "unheard_of" []], .new "mark" []]

def Operation.marked : Operation :=
  .compose [.endpointPipeline [.mark, .leaf .tcpConnect, .discard], .identity, .mark]

theorem Operation.sentinel_unchanged_mark :
    (∀ t ∈ [Template.mark], t.Adapted) ∧
      ((Registry.standard.registerAll [.mark]).compile .marked).result = .ok .marked ∧
      Operation.marked.apply { context := .root 0 }
        (.error ⟨"tcp_connect", "connection_refused"⟩)
        = .done (.error ⟨"tcp_connect", "connection_refused"⟩) := by
  have hmark : ∀ t ∈ [Template.mark], t.Adapted := by
    intro t ht known n cs o ho
    rw [List.mem_singleton.1 ht] at ho
    exact ⟨Endpoint, _, _, _, (Except.ok.inj ho).symm⟩
  have hop : ((Registry.standard.registerAll [.mark]).compile .marked).result = .ok .marked := rfl
  exact ⟨hmark, hop, (sentinel_unchanged hmark hop rfl { context := .root 0 }).1⟩

end NetProbe
