import NetProbe.Program.Arguments
import NetProbe.Program.Registry
set_option autoImplicit false

/-! # The standard registry

The operations that every probe knows. A leaf has its arguments decoded, then its lack of children
checked, then the values of its arguments. The others take no arguments, and their children are
turned into operations in order. `if_func_exists` stands for its child if the operation of the
child is known, and does nothing otherwise; what an unknown child looks like does not matter. -/

namespace NetProbe

namespace Template

/-- A leaf whose arguments are a record. -/
def leaf {σ : Type} (name : String) (schema : Json.Schema σ)
    (make : σ → Except CompileError Operation) : Template where
  name := name
  compile := fun _ n _ => .ofResult (do
    let arguments ← n.decodeArguments schema
    n.requireChildren 0
    make arguments)

/-- An operation made of at least `least` operations, without arguments of its own. -/
def group (name : String) (least : Nat) (make : List Operation → Operation) : Template where
  name := name
  compile := fun _ n children =>
    let checked : Except CompileError Unit := do
      let _ ← n.decodeArguments NoArguments.schema
      n.requireAtLeast least
    match checked with
    | .error e => .refuse e
    | .ok () => (Compilation.children children).map make

/-- The note that an unknown operation was left out. -/
def unknownNote (func : String) : LogEntry where
  level := .debug
  message := "if_func_exists: unknown operation, using identity"
  fields := [("func", .string func)]

/-- The only child if its operation is known, and nothing otherwise. -/
def ifExists : Template where
  name := "if_func_exists"
  compile := fun known n children =>
    match n.requireChildren 1, children with
    | .ok (), [child] =>
      if known child.func then child.compiled
      else { notes := [unknownNote child.func], result := .ok .identity }
    | .error e, _ => .refuse e
    | .ok (), _ => .ok .identity

/-- The operations that every probe knows. -/
def standard : List Template := [
  group "compose" 0 .compose,
  leaf "discard" NoArguments.schema fun _ => .ok .discard,
  leaf "domain_name" DomainArguments.schema fun a => do
    return .leaf (.domainName (← a.validate "domain_name")),
  leaf "dns_lookup_getaddrinfo" NoArguments.schema fun _ => .ok (.leaf .lookupSystem),
  group "dns_lookup_parallel" 0 .lookupParallel,
  leaf "dns_lookup_static" StaticLookupArguments.schema fun a => do
    return .leaf (.lookupStatic (← a.validate "dns_lookup_static")),
  leaf "dns_lookup_udp" UdpLookupArguments.schema fun a => do
    return .leaf (.lookupUdp (← a.validate "dns_lookup_udp")),
  leaf "http_transaction" HttpArguments.schema fun a => do
    return .leaf (.httpTransaction (← a.validate "http_transaction")),
  ifExists,
  leaf "make_endpoints_for_port" EndpointsArguments.schema fun a =>
    .ok (.leaf (.makeEndpoints a.port)),
  group "measure_multiple_domains" 0 .measureDomains,
  group "measure_multiple_endpoints" 0 .measureEndpoints,
  group "new_endpoint_pipeline" 1 .endpointPipeline,
  leaf "quic_handshake" HandshakeArguments.schema fun a =>
    .ok (.leaf (.quicHandshake a.options)),
  leaf "tcp_connect" NoArguments.schema fun _ => .ok (.leaf .tcpConnect),
  leaf "tls_handshake" HandshakeArguments.schema fun a =>
    .ok (.leaf (.tlsHandshake a.options))]

end Template

namespace Registry

/-- The registry that knows no operation. -/
def empty : Registry := {}

/-- The registry of the operations that every probe knows. -/
def standard : Registry := empty.registerAll Template.standard

end Registry

end NetProbe
