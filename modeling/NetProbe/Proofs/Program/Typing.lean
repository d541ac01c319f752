import NetProbe.Proofs.Operation.Typing
import NetProbe.Proofs.Program.Pieces
import NetProbe.Proofs.Run.Scheduler
set_option autoImplicit false

/-! # Programs from the builder go well

A piece that the constructors of the builder put together compiles, and what it compiles to respects
the kinds that the piece declares: `Piece.Built.sound`, by induction on how the piece was built.
Only an operation that the probe does not know may come from elsewhere, directly below
`if_func_exists`, where it stands for nothing. -/

namespace NetProbe

open Operation (Maps Chain)

/-- The pieces that the constructors put together. -/
inductive Piece.Built : Piece → Prop
  | compose {ps : List Piece} {p : Piece} :
      (∀ q ∈ ps, Built q) → Piece.compose ps = .ok p → Built p
  | discard (kinds : Kinds) : Built (.discard kinds)
  | ifExists {p q : Piece} : Built q → Piece.ifExists q = .ok p → Built p
  /-- A piece that was made by hand, of an operation that nobody knows. -/
  | ifUnknown {p q : Piece} :
      Registry.standard.knows q.name = false → Piece.ifExists q = .ok p → Built p
  | domainName {domain : String} {p : Piece} : Piece.domainName domain = .ok p → Built p
  | lookupSystem : Built .lookupSystem
  | lookupStatic {addresses : List String} {p : Piece} :
      Piece.lookupStatic addresses = .ok p → Built p
  | lookupUdp {endpoint : String} {p : Piece} : Piece.lookupUdp endpoint = .ok p → Built p
  | lookupParallel {ps : List Piece} {p : Piece} :
      (∀ q ∈ ps, Built q) → Piece.lookupParallel ps = .ok p → Built p
  | measureDomains {ps : List Piece} {p : Piece} :
      (∀ q ∈ ps, Built q) → Piece.measureDomains ps = .ok p → Built p
  | measureEndpoints {ps : List Piece} {p : Piece} :
      (∀ q ∈ ps, Built q) → Piece.measureEndpoints ps = .ok p → Built p
  | makeEndpoints (port : UInt16) : Built (.makeEndpoints port)
  | endpointPipeline {ps : List Piece} {p : Piece} :
      (∀ q ∈ ps, Built q) → Piece.endpointPipeline ps = .ok p → Built p
  | tcpConnect : Built .tcpConnect
  | tlsHandshake (a : HandshakeArguments) : Built (.tlsHandshake a)
  | quicHandshake (a : HandshakeArguments) : Built (.quicHandshake a)
  | httpTransaction {connection : Kind} {a : HttpArguments} {p : Piece} :
      Piece.httpTransaction connection a = .ok p → Built p

/-! ## Pieces -/

namespace Piece

/-- The piece compiles to an operation between the kinds that it declares. -/
def Sound (p : Piece) : Prop :=
  ∃ op, (Registry.standard.compile p.node).result = .ok op ∧ op.Maps p.input p.output

/-- The operations of sound pieces. -/
theorem exists_operations {ps : List Piece} (h : ∀ p ∈ ps, p.Sound) :
    ∃ ops, List.Forall₂ CompilesTo ps ops ∧
      List.Forall₂ (fun (p : Piece) op => Maps op p.input p.output) ps ops := by
  induction ps with
  | nil => exact ⟨[], .nil, .nil⟩
  | cons p ps ih =>
    obtain ⟨op, hop, hmaps⟩ := h p List.mem_cons_self
    obtain ⟨ops, hops, hall⟩ := ih fun q hq => h q (List.mem_cons_of_mem p hq)
    exact ⟨op :: ops, .cons hop hops, .cons hmaps hall⟩

/-- Pieces that passed the check of a group have its kinds. -/
theorem forall_of_checkGroup {context : String} {input output : Kinds} {ps : List Piece}
    (h : checkGroup context input output ps = .ok ()) :
    ∀ p ∈ ps, p.input.main = input.main ∧ p.output.main = output.main := by
  induction ps with
  | nil => simp
  | cons p ps ih =>
    rw [checkGroup] at h
    split at h
    · cases h
    · next hinput =>
      split at h
      · cases h
      · next houtput =>
        intro q hq
        rcases List.mem_cons.1 hq with rfl | hq
        · exact ⟨not_not.1 hinput, not_not.1 houtput⟩
        · exact ih h q hq

/-! ### Sequences -/

theorem chain_of_checkSequence {p : Piece} {ps : List Piece} {ops : List Operation}
    (h : checkSequence (p :: ps) = .ok ())
    (hops : List.Forall₂ (fun (p : Piece) op => Maps op p.input p.output) (p :: ps) ops) :
    Chain p.input ops (ps.getLast?.getD p).output := by
  induction ps generalizing p ops with
  | nil =>
    cases hops with
    | cons hop hrest =>
      cases hrest
      exact .cons hop (.nil rfl)
  | cons q ps ih =>
    cases hops with
    | cons hop hrest =>
      rw [checkSequence] at h
      split at h
      · next hkinds =>
        have hlast : ((q :: ps).getLast?.getD p) = ps.getLast?.getD q := by
          rw [List.getLast?_cons]
          rfl
        rw [hlast]
        exact .cons (hop.congr rfl hkinds) (ih h hrest)
      · cases h

theorem sound_compose {ps : List Piece} {p : Piece} (hps : ∀ q ∈ ps, q.Sound)
    (h : compose ps = .ok p) : p.Sound := by
  obtain ⟨ops, hops, hmaps⟩ := exists_operations hps
  refine ⟨.compose ops, compilesTo_compose hops h, ?_⟩
  obtain ⟨first, rest, rfl, hcheck, rfl⟩ := compose_eq_ok h
  exact Operation.maps_compose (chain_of_checkSequence hcheck hmaps)

theorem sound_endpointPipeline {ps : List Piece} {p : Piece} (hps : ∀ q ∈ ps, q.Sound)
    (h : endpointPipeline ps = .ok p) : p.Sound := by
  obtain ⟨ops, hops, hmaps⟩ := exists_operations hps
  refine ⟨.endpointPipeline ops, compilesTo_endpointPipeline hops h, ?_⟩
  obtain ⟨composed, hcompose, hgroup, rfl⟩ := endpointPipeline_eq_ok h
  obtain ⟨first, rest, rfl, hcheck, rfl⟩ := compose_eq_ok hcompose
  have hinput := (forall_of_checkGroup hgroup _ List.mem_cons_self).1
  exact Operation.maps_endpointPipeline ((chain_of_checkSequence hcheck hmaps).congr hinput)

/-! ### Groups -/

/-- A group of sound pieces that take and give values of the same kinds. -/
theorem sound_group {name : String} {input output : Kind} {make : List Operation → Operation}
    {ps : List Piece} {p : Piece} (i : Nat)
    (ht : Template.standard[i]? = some (.group name 0 make))
    (hmake : ∀ ops, (∀ op ∈ ops, Maps op input output) → (make ops).Maps input output)
    (hps : ∀ q ∈ ps, q.Sound) (h : group name input output ps = .ok p) : p.Sound := by
  obtain ⟨ops, hops, hmaps⟩ := exists_operations hps
  refine ⟨make ops, compilesTo_group i ht hops h, ?_⟩
  rw [group] at h
  obtain ⟨⟨⟩, hcheck, rfl⟩ := map_eq_ok_iff.1 h
  refine hmake ops fun op hop => ?_
  obtain ⟨q, hq, hqop⟩ := exists_of_forall₂_of_mem hmaps hop
  obtain ⟨hinput, houtput⟩ := forall_of_checkGroup hcheck q hq
  exact hqop.congr hinput houtput

/-! ### Filters -/

/-- A filter does nothing if its operation is not known. -/
theorem sound_ifExists {p q : Piece} (hq : Registry.standard.knows q.name = false ∨ q.Sound)
    (h : ifExists q = .ok p) : p.Sound := by
  have hp := h
  rw [ifExists] at h
  split at h
  · next hkinds =>
    obtain rfl := Except.ok.inj h
    -- A sound piece compiles, so its operation is known and the filter stands for it.
    rcases hq with hunknown | ⟨op, hop, hmaps⟩
    · have hfunc : q.node.func = q.name := by cases q; rfl
      refine ⟨.identity, ?_, Operation.maps_identity hkinds⟩
      rw [Registry.compile_ifExists rfl rfl, hfunc, hunknown]
      rfl
    · exact ⟨op, compilesTo_ifExists hop hp, hmaps⟩
  · cases h

/-! ### Leaves -/

theorem sound_domainName {domain : String} {p : Piece} (h : domainName domain = .ok p) :
    p.Sound := by
  refine ⟨_, compilesTo_domainName h, ?_⟩
  simp only [domainName, bind_eq_ok_iff] at h
  obtain ⟨d, -, hp⟩ := h
  exact Except.ok.inj hp ▸ Operation.maps_domainName domain

theorem sound_lookupStatic {addresses : List String} {p : Piece}
    (h : lookupStatic addresses = .ok p) : p.Sound := by
  obtain ⟨ips, -, hop⟩ := compilesTo_lookupStatic h
  refine ⟨_, hop, ?_⟩
  simp only [lookupStatic, bind_eq_ok_iff] at h
  obtain ⟨_, -, hp⟩ := h
  exact Except.ok.inj hp ▸ Operation.maps_lookupStatic ips

theorem sound_lookupUdp {endpoint : String} {p : Piece} (h : lookupUdp endpoint = .ok p) :
    p.Sound := by
  obtain ⟨address, -, hop⟩ := compilesTo_lookupUdp h
  refine ⟨_, hop, ?_⟩
  simp only [lookupUdp, bind_eq_ok_iff] at h
  obtain ⟨_, -, hp⟩ := h
  exact Except.ok.inj hp ▸ Operation.maps_lookupUdp (.at address)

theorem sound_httpTransaction {connection : Kind} {a : HttpArguments} {p : Piece}
    (h : httpTransaction connection a = .ok p) : p.Sound := by
  refine ⟨_, compilesTo_httpTransaction h, ?_⟩
  obtain ⟨hconnection, -, rfl⟩ := httpTransaction_eq_ok_iff.1 h
  exact Operation.maps_httpTransaction a hconnection

/-! ### All of them -/

/-- What the builder accepts compiles to an operation between the declared kinds. -/
theorem Built.sound {p : Piece} (h : p.Built) : p.Sound := by
  induction h with
  | compose _ h ih => exact sound_compose ih h
  | discard kinds => exact ⟨_, compilesTo_discard kinds, Operation.maps_discard⟩
  | ifExists _ h ih => exact sound_ifExists (.inr ih) h
  | ifUnknown hunknown h => exact sound_ifExists (.inl hunknown) h
  | domainName h => exact sound_domainName h
  | lookupSystem => exact ⟨_, compilesTo_lookupSystem, Operation.maps_lookupSystem⟩
  | lookupStatic h => exact sound_lookupStatic h
  | lookupUdp h => exact sound_lookupUdp h
  | lookupParallel _ h ih =>
    exact sound_group 4 rfl (fun _ => Operation.maps_lookupParallel) ih h
  | measureDomains _ h ih =>
    exact sound_group 10 rfl (fun _ => Operation.maps_measureDomains) ih h
  | measureEndpoints _ h ih =>
    exact sound_group 11 rfl (fun _ => Operation.maps_measureEndpoints) ih h
  | makeEndpoints port => exact ⟨_, compilesTo_makeEndpoints port, Operation.maps_makeEndpoints port⟩
  | endpointPipeline _ h ih => exact sound_endpointPipeline ih h
  | tcpConnect => exact ⟨_, compilesTo_tcpConnect, Operation.maps_tcpConnect⟩
  | tlsHandshake a => exact ⟨_, compilesTo_tlsHandshake a, Operation.maps_tlsHandshake a.options⟩
  | quicHandshake a => exact ⟨_, compilesTo_quicHandshake a, Operation.maps_quicHandshake a.options⟩
  | httpTransaction h => exact sound_httpTransaction h

/-- What the builder accepts compiles. On a value of the declared input kinds the operation comes to
    an end in every session, whatever the branches' order and whatever is answered, and comes to a
    sentinel or a value of the declared output kinds; so does whatever the scheduler makes of it. No
    operation on the way is given a value of a kind that it does not take: what would become of such
    a value makes no difference. -/
theorem respects_kinds {p : Piece} (h : p.Built) :
    ∃ op, (Registry.standard.compile p.node).result = .ok op ∧
      ∀ (s : Scope) (v : Value), v.isSentinel = false → v.kind ∈ p.input.main.members →
        (∀ σ : Session, (op.apply s v).Settles
          (fun w _ => w.isSentinel = true ∨ w.kind ∈ p.output.main.members) σ) ∧
        (∀ (e : Surroundings) (moments : Nat) (world world' : World) (w : Value),
          e.run moments (op.apply s v) world = some (w, world') →
            w.isSentinel = true ∨ w.kind ∈ p.output.main.members) ∧
        ∀ refuse, op.applyWith refuse s v = op.apply s v := by
  obtain ⟨op, hop, hmaps⟩ := h.sound
  refine ⟨op, hop, fun s v _ hkind => ?_⟩
  have hv : v.Fits p.input := .inr hkind
  have hsettles (σ : Session) : (op.apply s v).Settles (fun w _ => w.Fits p.output) σ :=
    (hmaps.yields s v hv).settles σ
  refine ⟨hsettles, fun e moments world world' w hrun => ?_, fun refuse => ?_⟩
  · exact (hsettles world.session).of_surroundings hrun
  · exact hmaps.accepts refuse s v hv

/-- An operation on TCP connections that nobody knows. -/
def unheardOf : Piece where
  name := "unheard_of"
  input := Kind.tcpConnection
  output := Kind.tcpConnection

/-- Connects to each endpoint and drops the connection, which an unknown operation may look at. -/
def inspection : Piece where
  name := "new_endpoint_pipeline"
  input := Kind.endpoints
  output := Kind.void
  arguments := .object []
  children := [
    tcpConnect,
    { name := "if_func_exists", input := Kind.tcpConnection, output := Kind.tcpConnection,
      children := [unheardOf] },
    discard Kind.tcpConnection]

/-- A place to connect to. -/
def home : Endpoint where
  address := { ip := .v4 ⟨0x7f000001⟩, port := 443 }
  domain := "localhost"

theorem respects_kinds_inspection :
    inspection.Built ∧
      (Registry.standard.compile inspection.node).result
        = .ok (.endpointPipeline [.leaf .tcpConnect, .identity, .discard]) ∧
      Value.isSentinel (.endpoints [home]) = false ∧
      Value.kind (.endpoints [home]) ∈ inspection.input.main.members ∧
      ((Operation.endpointPipeline [.leaf .tcpConnect, .identity, .discard]).apply
        { context := .root 0 } (.endpoints [home])).Settles
          (fun w _ => w.isSentinel = true ∨ w.kind ∈ inspection.output.main.members) {} := by
  have hbuilt : inspection.Built := by
    have hp : endpointPipeline inspection.children = .ok inspection := rfl
    refine .endpointPipeline (fun q hq => ?_) hp
    simp only [inspection, List.mem_cons, List.not_mem_nil, or_false] at hq
    rcases hq with rfl | rfl | rfl
    · exact .tcpConnect
    · exact .ifUnknown (q := unheardOf) (by decide) rfl
    · exact .discard _
  have hop : (Registry.standard.compile inspection.node).result
      = .ok (.endpointPipeline [.leaf .tcpConnect, .identity, .discard]) := rfl
  have hkind : Value.kind (.endpoints [home]) ∈ inspection.input.main.members := by decide
  refine ⟨hbuilt, hop, rfl, hkind, ?_⟩
  obtain ⟨op, hop', h⟩ := respects_kinds hbuilt
  obtain rfl := Except.ok.inj (hop.symm.trans hop')
  exact (h { context := .root 0 } (.endpoints [home]) rfl hkind).1 {}

end Piece

end NetProbe
