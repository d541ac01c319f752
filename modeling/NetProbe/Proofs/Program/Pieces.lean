import NetProbe.Program.Builder
import NetProbe.Proofs.Json.Schema
import NetProbe.Proofs.Registry.Induction
set_option autoImplicit false

/-! # What pieces compile to

The standard registry leaves a node to the template of its name. What the template makes of it is an
equation for each template, and for each piece without children, whose arguments the constructor
encodes and the template decodes. Constructor and template check the same arguments, but for the
empty ones: these the template leaves alone. -/

namespace NetProbe

namespace Registry

/-- A node with the name of a standard template is left to that template. -/
theorem compile_standard {n : Node} {t : Template} (i : Nat) (ht : Template.standard[i]? = some t)
    (hn : n.func = t.name) :
    standard.compile n = t.compile standard.knows n (standard.compileChildren n.children) :=
  compile_of_find? (hn ▸ find?_standard (List.mem_of_getElem? ht))

/-- A leaf is made of the arguments that the node encodes. -/
theorem compile_leaf {σ : Type} {name : String} {schema : Json.Schema σ}
    {make : σ → Except CompileError Operation} {n : Node} (i : Nat)
    (ht : Template.standard[i]? = some (.leaf name schema make)) (hschema : schema.Lawful) (a : σ)
    (hfunc : n.func = name) (harguments : n.arguments = schema.encode a)
    (hchildren : n.children = []) : (standard.compile n).result = make a := by
  have hdecode : n.decodeArguments schema = .ok a := by
    have hobject : n.arguments = .object _ := harguments
    rw [Node.decodeArguments, hobject]
    simp only
    rw [← hobject, harguments, hschema a]
  have hcount : n.requireChildren 0 = .ok () := by
    rw [Node.requireChildren, hchildren]
    rfl
  rw [compile_standard i ht hfunc, Template.leaf_result, hdecode]
  -- Binding to a result that is there goes on with what it holds.
  show n.requireChildren 0 >>= _ = _
  rw [hcount]
  rfl

theorem compile_group {name : String} {least : Nat} {make : List Operation → Operation} {n : Node}
    {ops : List Operation} (i : Nat)
    (ht : Template.standard[i]? = some (.group name least make)) (hfunc : n.func = name)
    (harguments : n.arguments = .object []) (hleast : least ≤ n.children.length)
    (hops : List.Forall₂ (fun m op => (standard.compile m).result = .ok op) n.children ops) :
    (standard.compile n).result = .ok (make ops) := by
  have hdecode : n.decodeArguments NoArguments.schema = .ok {} := by
    rw [Node.decodeArguments, harguments]
    rfl
  have hcount : n.requireAtLeast least = .ok () := by
    rw [Node.requireAtLeast, if_pos hleast]
  have hchildren :
      (Compilation.children (standard.compileChildren n.children)).result = .ok ops := by
    rw [Compilation.children_result, mapM_eq_ok_iff, compileChildren_eq_map,
      List.forall₂_map_left_iff]
    exact hops
  rw [compile_standard i ht hfunc, Template.group_result, hdecode]
  show n.requireAtLeast least >>= _ = _
  rw [hcount, hchildren]
  rfl

theorem compile_ifExists {n m : Node} (hfunc : n.func = "if_func_exists")
    (hchildren : n.children = [m]) :
    (standard.compile n).result =
      if standard.knows m.func then (standard.compile m).result else .ok .identity := by
  have hcount : n.requireChildren 1 = .ok () := by
    rw [Node.requireChildren, hchildren]
    rfl
  rw [compile_standard 8 rfl hfunc, Template.ifExists_result, hcount, compileChildren_eq_map,
    hchildren]
  rfl

/-- What compiles, the registry knows. -/
theorem knows_of_compile {r : Registry} {n : Node} {op : Operation}
    (h : (r.compile n).result = .ok op) : r.knows n.func = true := by
  cases hfind : r.find? n.func with
  | none =>
    rw [compile_of_find?_eq_none hfind] at h
    cases h
  | some t => rw [knows, hfind, Option.isSome_some]

end Registry

namespace Piece

open Registry (standard)

/-- The piece compiles to this operation. -/
def CompilesTo (p : Piece) (op : Operation) : Prop :=
  (standard.compile p.node).result = .ok op

/-! ## Pieces with children -/

theorem nodes_eq_map (ps : List Piece) : nodes ps = ps.map node := by
  induction ps with
  | nil => rfl
  | cons p ps ih => rw [nodes, ih, List.map_cons]

theorem forall₂_nodes {ps : List Piece} {ops : List Operation}
    (h : List.Forall₂ CompilesTo ps ops) :
    List.Forall₂ (fun m op => (standard.compile m).result = .ok op) (nodes ps) ops := by
  rw [nodes_eq_map, List.forall₂_map_left_iff]
  exact h

/-- What a sequence consists of. -/
theorem compose_eq_ok {ps : List Piece} {p : Piece} (h : compose ps = .ok p) :
    ∃ first rest, ps = first :: rest ∧ checkSequence ps = .ok () ∧
      p = { name := "compose", input := first.input, output := (rest.getLast?.getD first).output,
            children := ps } := by
  cases ps with
  | nil => cases h
  | cons first rest =>
    rw [compose] at h
    obtain ⟨⟨⟩, hcheck, rfl⟩ := map_eq_ok_iff.1 h
    exact ⟨first, rest, rfl, hcheck, rfl⟩

/-- A pipeline is a sequence that fits, under another name. -/
theorem endpointPipeline_eq_ok {ps : List Piece} {p : Piece} (h : endpointPipeline ps = .ok p) :
    ∃ composed, compose ps = .ok composed ∧
      checkGroup "new_endpoint_pipeline" Kind.endpoint Kind.void [composed] = .ok () ∧
      p = { name := "new_endpoint_pipeline", input := Kind.endpoints, output := Kind.void,
            arguments := .object [], children := ps } := by
  simp only [endpointPipeline, bind_eq_ok_iff] at h
  obtain ⟨composed, hcompose, ⟨⟩, hgroup, hp⟩ := h
  refine ⟨composed, hcompose, hgroup, (Except.ok.inj hp).symm.trans ?_⟩
  obtain ⟨first, rest, -, -, rfl⟩ := compose_eq_ok hcompose
  rfl

theorem compilesTo_compose {ps : List Piece} {p : Piece} {ops : List Operation}
    (hops : List.Forall₂ CompilesTo ps ops) (h : compose ps = .ok p) :
    p.CompilesTo (.compose ops) := by
  obtain ⟨first, rest, -, -, rfl⟩ := compose_eq_ok h
  exact Registry.compile_group 0 rfl rfl rfl (Nat.zero_le _) (forall₂_nodes hops)

theorem compilesTo_endpointPipeline {ps : List Piece} {p : Piece} {ops : List Operation}
    (hops : List.Forall₂ CompilesTo ps ops) (h : endpointPipeline ps = .ok p) :
    p.CompilesTo (.endpointPipeline ops) := by
  obtain ⟨composed, hcompose, -, rfl⟩ := endpointPipeline_eq_ok h
  obtain ⟨first, rest, rfl, -, -⟩ := compose_eq_ok hcompose
  have hleast : 1 ≤ (nodes (first :: rest)).length := Nat.succ_le_succ (Nat.zero_le _)
  exact Registry.compile_group 12 rfl rfl rfl hleast (forall₂_nodes hops)

theorem compilesTo_group {name : String} {input output : Kind} {make : List Operation → Operation}
    {ps : List Piece} {p : Piece} {ops : List Operation} (i : Nat)
    (ht : Template.standard[i]? = some (.group name 0 make))
    (hops : List.Forall₂ CompilesTo ps ops) (h : group name input output ps = .ok p) :
    p.CompilesTo (make ops) := by
  rw [group] at h
  obtain ⟨⟨⟩, -, rfl⟩ := map_eq_ok_iff.1 h
  exact Registry.compile_group i ht rfl rfl (Nat.zero_le _) (forall₂_nodes hops)

/-- A filter that compiles is known, and stands for itself. -/
theorem compilesTo_ifExists {p q : Piece} {op : Operation} (hq : q.CompilesTo op)
    (h : ifExists q = .ok p) : p.CompilesTo op := by
  rw [ifExists] at h
  split at h
  · obtain rfl := Except.ok.inj h
    rw [CompilesTo, Registry.compile_ifExists rfl rfl, Registry.knows_of_compile hq, if_pos rfl]
    exact hq
  · cases h

/-! ## Leaves without a check -/

theorem compilesTo_discard (kinds : Kinds) : (discard kinds).CompilesTo .discard :=
  Registry.compile_leaf 1 rfl NoArguments.lawful {} rfl rfl rfl

theorem compilesTo_lookupSystem : lookupSystem.CompilesTo (.leaf .lookupSystem) :=
  Registry.compile_leaf 3 rfl NoArguments.lawful {} rfl rfl rfl

theorem compilesTo_makeEndpoints (port : UInt16) :
    (makeEndpoints port).CompilesTo (.leaf (.makeEndpoints port)) :=
  Registry.compile_leaf 9 rfl EndpointsArguments.lawful { port } rfl rfl rfl

theorem compilesTo_tcpConnect : tcpConnect.CompilesTo (.leaf .tcpConnect) :=
  Registry.compile_leaf 14 rfl NoArguments.lawful {} rfl rfl rfl

theorem compilesTo_tlsHandshake (a : HandshakeArguments) :
    (tlsHandshake a).CompilesTo (.leaf (.tlsHandshake a.options)) :=
  Registry.compile_leaf 15 rfl HandshakeArguments.lawful a rfl rfl rfl

theorem compilesTo_quicHandshake (a : HandshakeArguments) :
    (quicHandshake a).CompilesTo (.leaf (.quicHandshake a.options)) :=
  Registry.compile_leaf 13 rfl HandshakeArguments.lawful a rfl rfl rfl

/-! ## Leaves whose arguments are checked

Whether a constructor accepts a text and whether the template does is one question, which
`parseDomain`, `parseAddresses` and `parseEndpoint` answer, unless the text is empty. -/

theorem orInvalid_eq_ok_iff {α : Type} {x : Except PlaceError α} {a : α} :
    orInvalid x = .ok a ↔ x = .ok a := by
  cases x with
  | error e => simp [orInvalid]
  | ok b => simp [orInvalid]

/-- What is made of a value that passed its check. -/
theorem exists_bind_iff {ε α β : Type} {x : Except ε α} {f : α → β} :
    (∃ b, (x >>= fun a => .ok (f a)) = .ok b) ↔ ∃ a, x = .ok a := by
  simp only [bind_eq_ok_iff, Except.ok.injEq]
  constructor
  · rintro ⟨b, a, ha, -⟩
    exact ⟨a, ha⟩
  · rintro ⟨a, ha⟩
    exact ⟨f a, a, ha, rfl⟩

/-- A constructor that checks `x` and a template that checks `y` accept the same arguments, but for
    empty ones. -/
theorem exists_piece_iff {ε α β γ δ : Type} {x : Except PlaceError α} {y : Except ε β}
    {f : α → γ} {g : β → δ} {Nonempty : Prop} (hx : ∀ a, x = .ok a → Nonempty)
    (hxy : Nonempty → ((∃ a, x = .ok a) ↔ ∃ b, y = .ok b)) :
    (∃ p, (orInvalid x >>= fun a => .ok (f a)) = .ok p)
      ↔ Nonempty ∧ ∃ op, (y >>= fun b => .ok (g b)) = .ok op := by
  simp only [exists_bind_iff, orInvalid_eq_ok_iff]
  constructor
  · intro h
    obtain ⟨a, ha⟩ := h
    exact ⟨hx a ha, (hxy (hx a ha)).1 ⟨a, ha⟩⟩
  · exact fun ⟨hnonempty, h⟩ => (hxy hnonempty).2 h

/-! ### Domains -/

theorem eq_of_parseDomain {text domain : String} (h : parseDomain text = .ok domain) :
    domain = text := by
  simp only [parseDomain] at h
  split at h
  · cases h
  · split at h
    · exact (Except.ok.inj h).symm
    · cases h

theorem ne_empty_of_parseDomain {text domain : String} (h : parseDomain text = .ok domain) :
    text ≠ "" := by
  rintro rfl
  cases h

theorem compile_domainName (domain : String) :
    (standard.compile {
      func := "domain_name", arguments := .object [("domain", .string domain)] }).result
      = (do return .leaf (.domainName (← DomainArguments.validate { domain } "domain_name"))) :=
  Registry.compile_leaf 2 rfl DomainArguments.lawful { domain } rfl rfl rfl

theorem validate_domain_iff {text domain func : String} (htext : text ≠ "") :
    DomainArguments.validate { domain := text } func = .ok domain
      ↔ parseDomain text = .ok domain := by
  have hempty : ¬ text.isEmpty = true := by rwa [String.isEmpty_iff]
  rw [DomainArguments.validate, if_neg hempty]
  cases parseDomain text <;> simp

theorem compilesTo_domainName {domain : String} {p : Piece} (h : domainName domain = .ok p) :
    p.CompilesTo (.leaf (.domainName domain)) := by
  simp only [domainName, bind_eq_ok_iff, orInvalid_eq_ok_iff] at h
  obtain ⟨d, hparse, hp⟩ := h
  obtain rfl := Except.ok.inj hp
  obtain rfl := eq_of_parseDomain hparse
  refine (compile_domainName d).trans ?_
  rw [(validate_domain_iff (ne_empty_of_parseDomain hparse)).2 hparse]
  rfl

/-- The constructor accepts the domains that the template accepts, but for the empty one. -/
theorem exists_domainName_iff (domain : String) :
    (∃ p, domainName domain = .ok p) ↔ domain ≠ "" ∧ ∃ op, (standard.compile {
      func := "domain_name",
      arguments := .object [("domain", .string domain)] }).result = .ok op := by
  rw [compile_domainName]
  exact exists_piece_iff (fun _ => ne_empty_of_parseDomain) fun hdomain => by
    simp only [validate_domain_iff hdomain]

/-! ### Addresses -/

theorem ne_nil_of_parseAddresses {texts : List String} {ips : List Ip}
    (h : parseAddresses texts = .ok ips) : texts ≠ [] := by
  rintro rfl
  cases h

/-- The addresses that some texts spell, one by one. -/
theorem mapM_parse?_of_parseAddresses {texts : List String} {ips : List Ip}
    (h : parseAddresses texts = .ok ips) : texts.mapM Ip.parse? = some ips := by
  have htexts : ¬ texts.isEmpty = true := by
    rw [List.isEmpty_iff]
    exact ne_nil_of_parseAddresses h
  rw [parseAddresses, if_neg htexts, mapM_eq_ok_iff] at h
  clear htexts
  induction h with
  | nil => rfl
  | @cons text ip texts ips hip _ ih =>
    have hparse : Ip.parse? text = some ip := by
      cases hfound : Ip.parse? text with
      | none =>
        rw [hfound] at hip
        cases hip
      | some a =>
        rw [hfound] at hip
        rw [Except.ok.inj hip]
    rw [List.mapM_cons, hparse, ih]
    rfl

theorem compile_lookupStatic (addresses : List String) :
    (standard.compile {
      func := "dns_lookup_static",
      arguments := .object [("addresses", Json.ofTexts addresses)] }).result
      = (do return .leaf (.lookupStatic
          (← StaticLookupArguments.validate { addresses } "dns_lookup_static"))) :=
  Registry.compile_leaf 5 rfl StaticLookupArguments.lawful { addresses } rfl rfl rfl

theorem validate_addresses_iff {texts : List String} {ips : List Ip} {func : String}
    (htexts : texts ≠ []) :
    StaticLookupArguments.validate { addresses := texts } func = .ok ips
      ↔ parseAddresses texts = .ok ips := by
  have hempty : ¬ texts.isEmpty = true := by rwa [List.isEmpty_iff]
  rw [StaticLookupArguments.validate, if_neg hempty]
  cases parseAddresses texts <;> simp

theorem compilesTo_lookupStatic {addresses : List String} {p : Piece}
    (h : lookupStatic addresses = .ok p) :
    ∃ ips, addresses.mapM Ip.parse? = some ips ∧ p.CompilesTo (.leaf (.lookupStatic ips)) := by
  simp only [lookupStatic, bind_eq_ok_iff, orInvalid_eq_ok_iff] at h
  obtain ⟨ips, hparse, hp⟩ := h
  obtain rfl := Except.ok.inj hp
  refine ⟨ips, mapM_parse?_of_parseAddresses hparse, (compile_lookupStatic addresses).trans ?_⟩
  rw [(validate_addresses_iff (ne_nil_of_parseAddresses hparse)).2 hparse]
  rfl

/-- The constructor accepts the addresses that the template accepts, if there are any. -/
theorem exists_lookupStatic_iff (addresses : List String) :
    (∃ p, lookupStatic addresses = .ok p) ↔ addresses ≠ [] ∧ ∃ op, (standard.compile {
      func := "dns_lookup_static",
      arguments := .object [("addresses", Json.ofTexts addresses)] }).result = .ok op := by
  rw [compile_lookupStatic]
  exact exists_piece_iff (fun _ => ne_nil_of_parseAddresses) fun haddresses => by
    simp only [validate_addresses_iff haddresses]

/-! ### Resolvers -/

theorem ne_empty_of_parseEndpoint {text : String} {address : SocketAddress}
    (h : parseEndpoint text = .ok address) : text ≠ "" := by
  rintro rfl
  cases h

theorem parse?_of_parseEndpoint {text : String} {address : SocketAddress}
    (h : parseEndpoint text = .ok address) : SocketAddress.parse? text = some address := by
  rw [parseEndpoint] at h
  split at h
  · next hparse =>
    obtain rfl := Except.ok.inj h
    exact hparse
  · cases h

theorem compile_lookupUdp (endpoint : String) :
    (standard.compile {
      func := "dns_lookup_udp", arguments := .object [("endpoint", .string endpoint)] }).result
      = (do return .leaf (.lookupUdp
          (← UdpLookupArguments.validate { endpoint } "dns_lookup_udp"))) :=
  Registry.compile_leaf 6 rfl UdpLookupArguments.lawful { endpoint } rfl rfl rfl

theorem validate_endpoint_iff {text func : String} {resolver : Resolver} (htext : text ≠ "") :
    UdpLookupArguments.validate { endpoint := text } func = .ok resolver
      ↔ ∃ address, parseEndpoint text = .ok address ∧ resolver = .at address := by
  have hempty : ¬ text.isEmpty = true := by rwa [String.isEmpty_iff]
  rw [UdpLookupArguments.validate, if_neg hempty]
  cases parseEndpoint text <;> simp [eq_comm]

theorem compilesTo_lookupUdp {endpoint : String} {p : Piece} (h : lookupUdp endpoint = .ok p) :
    ∃ address, SocketAddress.parse? endpoint = some address ∧
      p.CompilesTo (.leaf (.lookupUdp (.at address))) := by
  simp only [lookupUdp, bind_eq_ok_iff, orInvalid_eq_ok_iff] at h
  obtain ⟨address, hparse, hp⟩ := h
  obtain rfl := Except.ok.inj hp
  refine ⟨address, parse?_of_parseEndpoint hparse, (compile_lookupUdp endpoint).trans ?_⟩
  rw [(validate_endpoint_iff (ne_empty_of_parseEndpoint hparse)).2 ⟨address, hparse, rfl⟩]
  rfl

/-- The constructor accepts the endpoints that the template accepts, but for the empty one. -/
theorem exists_lookupUdp_iff (endpoint : String) :
    (∃ p, lookupUdp endpoint = .ok p) ↔ endpoint ≠ "" ∧ ∃ op, (standard.compile {
      func := "dns_lookup_udp",
      arguments := .object [("endpoint", .string endpoint)] }).result = .ok op := by
  rw [compile_lookupUdp]
  refine exists_piece_iff (fun _ => ne_empty_of_parseEndpoint) fun hendpoint => ?_
  simp only [validate_endpoint_iff hendpoint]
  constructor
  · rintro ⟨address, haddress⟩
    exact ⟨.at address, address, haddress, rfl⟩
  · rintro ⟨_, address, haddress, -⟩
    exact ⟨address, haddress⟩

/-! ### Requests -/

theorem eq_of_validate {a valid : HttpArguments} {func : String}
    (h : a.validate func = .ok valid) : valid = a := by
  rw [HttpArguments.validate] at h
  split at h
  · cases h
  · split at h
    · cases h
    · split at h
      · cases h
      · exact (Except.ok.inj h).symm

theorem compile_httpTransaction (a : HttpArguments) :
    (standard.compile {
      func := "http_transaction", arguments := HttpArguments.schema.encode a }).result
      = (do return .leaf (.httpTransaction (← a.validate "http_transaction"))) :=
  Registry.compile_leaf 7 rfl HttpArguments.lawful a rfl rfl rfl

/-- What a request consists of. -/
theorem httpTransaction_eq_ok_iff {connection : Kind} {a : HttpArguments} {p : Piece} :
    httpTransaction connection a = .ok p ↔ connection ∈ connectionKinds ∧
      a.validate "http_transaction" = .ok a ∧
      p = { name := "http_transaction", input := connection, output := Kind.httpResponse,
            arguments := HttpArguments.schema.encode a } := by
  rw [httpTransaction]
  by_cases hconnection : connection ∈ connectionKinds
  · rw [if_pos (List.contains_iff_mem.2 hconnection)]
    cases hvalid : a.validate "http_transaction" with
    | error e => simp
    | ok valid =>
      obtain rfl := eq_of_validate hvalid
      simp [hconnection, eq_comm]
  · rw [if_neg fun h => hconnection (List.contains_iff_mem.1 h)]
    simp [hconnection]

theorem compilesTo_httpTransaction {connection : Kind} {a : HttpArguments} {p : Piece}
    (h : httpTransaction connection a = .ok p) :
    p.CompilesTo (.leaf (.httpTransaction a)) := by
  obtain ⟨-, hvalid, rfl⟩ := httpTransaction_eq_ok_iff.1 h
  refine (compile_httpTransaction a).trans ?_
  rw [hvalid]
  rfl

/-- The constructor accepts the requests that the template accepts. -/
theorem exists_httpTransaction_iff {connection : Kind} (hconnection : connection ∈ connectionKinds)
    (a : HttpArguments) :
    (∃ p, httpTransaction connection a = .ok p) ↔ ∃ op, (standard.compile {
      func := "http_transaction",
      arguments := HttpArguments.schema.encode a }).result = .ok op := by
  rw [compile_httpTransaction]
  simp only [httpTransaction_eq_ok_iff, hconnection, true_and, exists_and_left, exists_eq, and_true]
  constructor
  · exact fun hvalid => exists_bind_iff.2 ⟨a, hvalid⟩
  · intro hop
    obtain ⟨valid, hvalid⟩ := exists_bind_iff.1 hop
    exact eq_of_validate hvalid ▸ hvalid

end Piece

end NetProbe
