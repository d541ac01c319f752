import NetProbe.Program.Node
import NetProbe.Json.Schema
set_option autoImplicit false

/-! # Arguments of the built-in operations

The records that the arguments of operations spell, their defaults, and the checks on their values.
Absent or `null` arguments are the defaults. The defaults of every record pass its checks: an empty
domain, an empty list of addresses and an empty endpoint are left for the operation to report when
it runs. -/

namespace NetProbe

open Json (Field Schema)

/-- The record that the arguments of a node spell. -/
def Node.decodeArguments {σ : Type} (s : Schema σ) (n : Node) : Except CompileError σ :=
  match n.arguments with
  | .null => .ok s.defaults
  | v =>
    match s.decode v with
    | .ok r => .ok r
    | .error e => .error (.malformedArguments n.func e)

/-- No arguments. -/
structure NoArguments where
deriving DecidableEq, Repr

def NoArguments.schema : Schema NoArguments where
  title := "Empty"
  fields := []
  defaults := {}

/-- The domain to measure. -/
structure DomainArguments where
  domain : String := ""
deriving DecidableEq, Repr

namespace DomainArguments

def schema : Schema DomainArguments where
  title := "DomainNameArguments"
  fields := [
    { name := "domain"
      set := fun v r => (Json.toText v).map fun x => { r with domain := x }
      get := fun r => some (.string r.domain) }]
  defaults := {}

/-- The domain; an empty one is accepted. -/
def validate (a : DomainArguments) (func : String) : Except CompileError String :=
  if a.domain.isEmpty then .ok ""
  else match parseDomain a.domain with
    | .ok d => .ok d
    | .error e => .error (.invalidArgument func (.place e))

end DomainArguments

/-- The addresses that a lookup gives without asking anybody. -/
structure StaticLookupArguments where
  addresses : List String := []
deriving DecidableEq, Repr

namespace StaticLookupArguments

def schema : Schema StaticLookupArguments where
  title := "DnsLookupStaticArguments"
  fields := [
    { name := "addresses"
      set := fun v r => (Json.toTexts v).map fun x => { r with addresses := x }
      get := fun r => some (Json.ofTexts r.addresses) }]
  defaults := {}

/-- The addresses; an empty list is accepted. -/
def validate (a : StaticLookupArguments) (func : String) : Except CompileError (List Ip) :=
  if a.addresses.isEmpty then .ok []
  else match parseAddresses a.addresses with
    | .ok ips => .ok ips
    | .error e => .error (.invalidArgument func (.place e))

end StaticLookupArguments

/-- A resolver: where it listens, or the text that does not say so. -/
inductive Resolver where
  | at (address : SocketAddress)
  | unusable (text : String)
deriving DecidableEq, Repr

/-- The resolver as observations show it. -/
def Resolver.text : Resolver → String
  | .at address => address.text
  | .unusable text => text

/-- The resolver that a text names. -/
def Resolver.ofText (text : String) : Resolver :=
  match SocketAddress.parse? text with
  | some a => .at a
  | none => .unusable text

/-- The resolver to ask. -/
structure UdpLookupArguments where
  endpoint : String := ""
deriving DecidableEq, Repr

namespace UdpLookupArguments

def schema : Schema UdpLookupArguments where
  title := "DnsLookupUdpArguments"
  fields := [
    { name := "endpoint"
      set := fun v r => (Json.toText v).map fun x => { r with endpoint := x }
      get := fun r => some (.string r.endpoint) }]
  defaults := {}

/-- The resolver; an empty text is accepted and names no usable one. -/
def validate (a : UdpLookupArguments) (func : String) : Except CompileError Resolver :=
  if a.endpoint.isEmpty then .ok (Resolver.ofText a.endpoint)
  else match parseEndpoint a.endpoint with
    | .ok address => .ok (.at address)
    | .error e => .error (.invalidArgument func (.place e))

end UdpLookupArguments

/-- The port of the endpoints to make. -/
structure EndpointsArguments where
  port : UInt16 := 0
deriving DecidableEq, Repr

def EndpointsArguments.schema : Schema EndpointsArguments where
  title := "MakeEndpointsForPortArguments"
  fields := [
    { name := "port"
      set := fun v r =>
        (Json.toBounded 65535 "u16" v).map fun x => { r with port := UInt16.ofNat x }
      get := fun r => some (.ofNat r.port.toNat) }]
  defaults := {}

/-- What a handshake offers and how it checks the peer, as programs spell it. -/
structure HandshakeArguments where
  alpn : List String := []
  skipVerify : Bool := false
  sni : String := ""
  certificates : List String := []
deriving DecidableEq, Repr

/-- What a handshake offers and how it checks the peer. -/
structure HandshakeOptions where
  /-- The protocols to offer; nothing means the default of the transport. -/
  alpn : Option (List String) := none
  /-- The server name to send; nothing means the domain of the endpoint. -/
  sni : Option String := none
  /-- Accept any certificate. -/
  skipVerify : Bool := false
  /-- Roots in PEM form that replace the bundled ones. -/
  certificates : List String := []
deriving DecidableEq, Repr

namespace HandshakeArguments

/-- Fields that hold their default are left out. -/
def schema : Schema HandshakeArguments where
  title := "HandshakeArguments"
  fields := [
    { name := "alpn"
      set := fun v r => (Json.toTexts v).map fun x => { r with alpn := x }
      get := fun r => if r.alpn.isEmpty then none else some (Json.ofTexts r.alpn) },
    { name := "skip_verify"
      set := fun v r => (Json.toFlag v).map fun x => { r with skipVerify := x }
      get := fun r => if r.skipVerify then some (.bool true) else none },
    { name := "sni"
      set := fun v r => (Json.toText v).map fun x => { r with sni := x }
      get := fun r => if r.sni.isEmpty then none else some (.string r.sni) },
    { name := "x509_certs"
      set := fun v r => (Json.toTexts v).map fun x => { r with certificates := x }
      get := fun r =>
        if r.certificates.isEmpty then none else some (Json.ofTexts r.certificates) }]
  defaults := {}

/-- Empty lists and texts stand for nothing. -/
def options (a : HandshakeArguments) : HandshakeOptions where
  alpn := if a.alpn.isEmpty then none else some a.alpn
  sni := if a.sni.isEmpty then none else some a.sni
  skipVerify := a.skipVerify
  certificates := a.certificates

end HandshakeArguments

/-- What a request overrides. Nothing picks the configured default, or the one that the connection
    suggests; an empty header value leaves the header out. -/
structure HttpArguments where
  accept : Option String := none
  acceptLanguage : Option String := none
  host : Option String := none
  method : Option String := none
  referer : Option String := none
  snapshotSize : Option UInt64 := none
  urlHost : Option String := none
  urlPath : Option String := none
  urlScheme : Option String := none
  userAgent : Option String := none
deriving DecidableEq, Repr

namespace HttpArguments

/-- A field that holds a text or nothing, and is left out when it holds nothing. -/
def textField (name : String) (get : HttpArguments → Option String)
    (set : Option String → HttpArguments → HttpArguments) : Json.Field HttpArguments where
  name := name
  set := fun v r => (Json.toOptional Json.toText v).map fun x => set x r
  get := fun r => (get r).map .string

def schema : Schema HttpArguments where
  title := "HttpTransactionArguments"
  fields := [
    textField "accept" (·.accept) fun x r => { r with accept := x },
    textField "accept_language" (·.acceptLanguage) fun x r => { r with acceptLanguage := x },
    textField "host" (·.host) fun x r => { r with host := x },
    textField "method" (·.method) fun x r => { r with method := x },
    textField "referer" (·.referer) fun x r => { r with referer := x },
    { name := "response_body_snapshot_size"
      set := fun v r => (Json.toOptional (Json.toBounded 18446744073709551615 "usize") v).map fun x =>
        { r with snapshotSize := x.map UInt64.ofNat }
      get := fun r => r.snapshotSize.map fun n => .ofNat n.toNat },
    textField "url_host" (·.urlHost) fun x r => { r with urlHost := x },
    textField "url_path" (·.urlPath) fun x r => { r with urlPath := x },
    textField "url_scheme" (·.urlScheme) fun x r => { r with urlScheme := x },
    textField "user_agent" (·.userAgent) fun x r => { r with userAgent := x }]
  defaults := {}

/-- Refuses a snapshot of no bytes, schemes other than `http` and `https`, and paths that do not
    start with a slash; the first of these faults is reported. -/
def validate (a : HttpArguments) (func : String) : Except CompileError HttpArguments :=
  if a.snapshotSize = some 0 then .error (.invalidArgument func .emptySnapshot)
  else match a.urlScheme.filter fun s => s != "http" && s != "https" with
    | some s => .error (.invalidArgument func (.scheme s))
    | none =>
      match a.urlPath.filter fun p => p.toList.head? != some '/' with
      | some p => .error (.invalidArgument func (.path p))
      | none => .ok a

end HttpArguments

end NetProbe
