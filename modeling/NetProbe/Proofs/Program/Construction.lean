import NetProbe.Proofs.Program.Pieces
set_option autoImplicit false

/-! # Builder and registry accept the same programs

A `Construction` is what somebody writes who puts a program together with the constructors of the
builder: their calls as a tree, with the arguments. What the builder accepts, the standard registry
compiles, to the operation that the construction spells (`Construction.compiles`, by induction on
the tree); and a constructor that checks arguments refuses none that the registry takes, but for
empty ones. -/

namespace NetProbe

/-- Calls of the constructors of pieces. -/
inductive Construction where
  | compose (cs : List Construction)
  | discard (kinds : Kinds)
  | ifExists (c : Construction)
  | domainName (domain : String)
  | lookupSystem
  | lookupStatic (addresses : List String)
  | lookupUdp (endpoint : String)
  | lookupParallel (cs : List Construction)
  | measureDomains (cs : List Construction)
  | measureEndpoints (cs : List Construction)
  | makeEndpoints (port : UInt16)
  | endpointPipeline (cs : List Construction)
  | tcpConnect
  | tlsHandshake (a : HandshakeArguments)
  | quicHandshake (a : HandshakeArguments)
  | httpTransaction (connection : Kind) (a : HttpArguments)

namespace Construction

open Registry (standard)

mutual

/-- The piece, unless a constructor refuses. The calls in a call come first. -/
def build : Construction → Except BuildError Piece
  | compose cs => do Piece.compose (← buildAll cs)
  | discard kinds => .ok (Piece.discard kinds)
  | ifExists c => do Piece.ifExists (← build c)
  | domainName domain => Piece.domainName domain
  | lookupSystem => .ok Piece.lookupSystem
  | lookupStatic addresses => Piece.lookupStatic addresses
  | lookupUdp endpoint => Piece.lookupUdp endpoint
  | lookupParallel cs => do Piece.lookupParallel (← buildAll cs)
  | measureDomains cs => do Piece.measureDomains (← buildAll cs)
  | measureEndpoints cs => do Piece.measureEndpoints (← buildAll cs)
  | makeEndpoints port => .ok (Piece.makeEndpoints port)
  | endpointPipeline cs => do Piece.endpointPipeline (← buildAll cs)
  | tcpConnect => .ok Piece.tcpConnect
  | tlsHandshake a => .ok (Piece.tlsHandshake a)
  | quicHandshake a => .ok (Piece.quicHandshake a)
  | httpTransaction connection a => Piece.httpTransaction connection a

def buildAll : List Construction → Except BuildError (List Piece)
  | [] => .ok []
  | c :: cs => do
    let p ← build c
    let ps ← buildAll cs
    return p :: ps

end

mutual

/-- The operation with the arguments of the construction, if the texts that should spell addresses
    do. The kinds are for the builder alone, and a filter stands for itself. -/
def operation? : Construction → Option Operation
  | compose cs => (operations? cs).map .compose
  | discard _ => some .discard
  | ifExists c => operation? c
  | domainName domain => some (.leaf (.domainName domain))
  | lookupSystem => some (.leaf .lookupSystem)
  | lookupStatic addresses =>
    (addresses.mapM Ip.parse?).map fun ips => .leaf (.lookupStatic ips)
  | lookupUdp endpoint =>
    (SocketAddress.parse? endpoint).map fun address => .leaf (.lookupUdp (.at address))
  | lookupParallel cs => (operations? cs).map .lookupParallel
  | measureDomains cs => (operations? cs).map .measureDomains
  | measureEndpoints cs => (operations? cs).map .measureEndpoints
  | makeEndpoints port => some (.leaf (.makeEndpoints port))
  | endpointPipeline cs => (operations? cs).map .endpointPipeline
  | tcpConnect => some (.leaf .tcpConnect)
  | tlsHandshake a => some (.leaf (.tlsHandshake a.options))
  | quicHandshake a => some (.leaf (.quicHandshake a.options))
  | httpTransaction _ a => some (.leaf (.httpTransaction a))

def operations? : List Construction → Option (List Operation)
  | [] => some []
  | c :: cs => do
    let op ← operation? c
    let ops ← operations? cs
    return op :: ops

end

/-- The construction spells an operation, to which the piece compiles. -/
def Compiles (c : Construction) (p : Piece) : Prop :=
  ∃ op, c.operation? = some op ∧ p.CompilesTo op

/-- Calls of a constructor with several pieces. -/
theorem compiles_of_all {cs : List Construction}
    {f : List Piece → Except BuildError Piece} {make : List Operation → Operation} {p : Piece}
    {c : Construction}
    (hmake : ∀ qs p ops, List.Forall₂ Piece.CompilesTo qs ops → f qs = .ok p →
      p.CompilesTo (make ops))
    (hcs : ∀ ps, buildAll cs = .ok ps →
      ∃ ops, operations? cs = some ops ∧ List.Forall₂ Piece.CompilesTo ps ops)
    (hc : c.operation? = (operations? cs).map make)
    (h : (buildAll cs >>= f) = .ok p) : c.Compiles p := by
  obtain ⟨ps, hps, hp⟩ := bind_eq_ok_iff.1 h
  obtain ⟨ops, hops, hall⟩ := hcs ps hps
  exact ⟨make ops, by rw [hc, hops]; rfl, hmake ps p ops hall hp⟩

mutual

theorem compiles : ∀ (c : Construction) (p : Piece), c.build = .ok p → c.Compiles p
  | compose cs, p, h =>
    compiles_of_all (fun _ _ _ => Piece.compilesTo_compose) (compiles_all cs) rfl h
  | discard kinds, p, h => ⟨_, rfl, Except.ok.inj h ▸ Piece.compilesTo_discard kinds⟩
  | ifExists c, p, h => by
    obtain ⟨q, hq, hp⟩ := bind_eq_ok_iff.1 h
    obtain ⟨op, hop, hcompiles⟩ := compiles c q hq
    exact ⟨op, hop, Piece.compilesTo_ifExists hcompiles hp⟩
  | domainName domain, p, h => ⟨_, rfl, Piece.compilesTo_domainName h⟩
  | lookupSystem, p, h => ⟨_, rfl, Except.ok.inj h ▸ Piece.compilesTo_lookupSystem⟩
  | lookupStatic addresses, p, h => by
    obtain ⟨ips, hips, hcompiles⟩ := Piece.compilesTo_lookupStatic h
    exact ⟨_, by rw [operation?, hips]; rfl, hcompiles⟩
  | lookupUdp endpoint, p, h => by
    obtain ⟨address, haddress, hcompiles⟩ := Piece.compilesTo_lookupUdp h
    exact ⟨_, by rw [operation?, haddress]; rfl, hcompiles⟩
  | lookupParallel cs, p, h =>
    compiles_of_all (fun _ _ _ => Piece.compilesTo_group 4 rfl) (compiles_all cs) rfl h
  | measureDomains cs, p, h =>
    compiles_of_all (fun _ _ _ => Piece.compilesTo_group 10 rfl) (compiles_all cs) rfl h
  | measureEndpoints cs, p, h =>
    compiles_of_all (fun _ _ _ => Piece.compilesTo_group 11 rfl) (compiles_all cs) rfl h
  | makeEndpoints port, p, h => ⟨_, rfl, Except.ok.inj h ▸ Piece.compilesTo_makeEndpoints port⟩
  | endpointPipeline cs, p, h =>
    compiles_of_all (fun _ _ _ => Piece.compilesTo_endpointPipeline) (compiles_all cs) rfl h
  | tcpConnect, p, h => ⟨_, rfl, Except.ok.inj h ▸ Piece.compilesTo_tcpConnect⟩
  | tlsHandshake a, p, h => ⟨_, rfl, Except.ok.inj h ▸ Piece.compilesTo_tlsHandshake a⟩
  | quicHandshake a, p, h => ⟨_, rfl, Except.ok.inj h ▸ Piece.compilesTo_quicHandshake a⟩
  | httpTransaction connection a, p, h => ⟨_, rfl, Piece.compilesTo_httpTransaction h⟩

theorem compiles_all : ∀ (cs : List Construction) (ps : List Piece), buildAll cs = .ok ps →
    ∃ ops, operations? cs = some ops ∧ List.Forall₂ Piece.CompilesTo ps ops
  | [], ps, h => by
    obtain rfl := Except.ok.inj h
    exact ⟨[], rfl, .nil⟩
  | c :: cs, ps, h => by
    rw [buildAll] at h
    simp only [bind_eq_ok_iff] at h
    obtain ⟨p, hp, rest, hrest, hps⟩ := h
    obtain rfl := Except.ok.inj hps
    obtain ⟨op, hop, hcompiles⟩ := compiles c p hp
    obtain ⟨ops, hops, hall⟩ := compiles_all cs rest hrest
    exact ⟨op :: ops, by rw [operations?, hop, hops]; rfl, .cons hcompiles hall⟩

end

/-- What the builder accepts, the standard registry compiles, with the arguments that the
    constructors were given. Of domains, lists of addresses and endpoints that are not empty, and of
    requests, the builder accepts those that the registry does. -/
theorem build_accepts_compile :
    (∀ (c : Construction) (p : Piece), c.build = .ok p →
      ∃ op, c.operation? = some op ∧ (standard.compile p.node).result = .ok op) ∧
    (∀ domain : String, (∃ p, Piece.domainName domain = .ok p) ↔
      domain ≠ "" ∧ ∃ op, (standard.compile {
        func := "domain_name",
        arguments := .object [("domain", .string domain)] }).result = .ok op) ∧
    (∀ addresses : List String, (∃ p, Piece.lookupStatic addresses = .ok p) ↔
      addresses ≠ [] ∧ ∃ op, (standard.compile {
        func := "dns_lookup_static",
        arguments := .object [("addresses", Json.ofTexts addresses)] }).result = .ok op) ∧
    (∀ endpoint : String, (∃ p, Piece.lookupUdp endpoint = .ok p) ↔
      endpoint ≠ "" ∧ ∃ op, (standard.compile {
        func := "dns_lookup_udp",
        arguments := .object [("endpoint", .string endpoint)] }).result = .ok op) ∧
    ∀ connection ∈ Piece.connectionKinds, ∀ a : HttpArguments,
      (∃ p, Piece.httpTransaction connection a = .ok p) ↔
        ∃ op, (standard.compile {
          func := "http_transaction",
          arguments := HttpArguments.schema.encode a }).result = .ok op :=
  ⟨compiles, Piece.exists_domainName_iff, Piece.exists_lookupStatic_iff,
    Piece.exists_lookupUdp_iff, fun _ => Piece.exists_httpTransaction_iff⟩

/-- Fetches a page over TLS from a server whose address the program knows. -/
def fetch : Construction :=
  .compose [
    .domainName "example.com",
    .lookupStatic ["192.0.2.1"],
    .makeEndpoints 443,
    .endpointPipeline [
      .tcpConnect,
      .tlsHandshake { sni := "www.example.com" },
      .httpTransaction .tlsConnection { urlPath := some "/page" },
      .discard Kind.httpResponse]]

def fetchOperation : Operation :=
  .compose [
    .leaf (.domainName "example.com"),
    .leaf (.lookupStatic [.v4 ⟨0xc0000201⟩]),
    .leaf (.makeEndpoints 443),
    .endpointPipeline [
      .leaf .tcpConnect,
      .leaf (.tlsHandshake { sni := some "www.example.com" }),
      .leaf (.httpTransaction { urlPath := some "/page" }),
      .discard]]

theorem compiles_fetch : ∃ n, (standard.compile n).result = .ok fetchOperation := by
  obtain ⟨p, hp⟩ : ∃ p, fetch.build = .ok p := ⟨_, rfl⟩
  obtain ⟨op, hop, hcompile⟩ := compiles fetch p hp
  obtain rfl : fetchOperation = op := Option.some.inj hop
  exact ⟨p.node, hcompile⟩

theorem build_accepts_compile_fetch :
    (∃ p, fetch.build = .ok p ∧ fetch.operation? = some fetchOperation ∧
      (standard.compile p.node).result = .ok fetchOperation) ∧
    Kind.tlsConnection ∈ Piece.connectionKinds ∧
    ∃ p, Piece.httpTransaction .tlsConnection { urlPath := some "/page" } = .ok p := by
  obtain ⟨hcompiles, -, -, -, hrequests⟩ := build_accepts_compile
  have hkind : Kind.tlsConnection ∈ Piece.connectionKinds := by decide
  have hoperation : fetch.operation? = some fetchOperation := rfl
  obtain ⟨p, hp⟩ : ∃ p, fetch.build = .ok p := ⟨_, rfl⟩
  obtain ⟨op, hop, hcompile⟩ := hcompiles fetch p hp
  obtain rfl := Option.some.inj (hoperation.symm.trans hop)
  exact ⟨⟨p, hp, hoperation, hcompile⟩, hkind, (hrequests _ hkind _).2 ⟨_, rfl⟩⟩

end Construction

end NetProbe
