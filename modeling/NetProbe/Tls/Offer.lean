import NetProbe.Program.Arguments
import NetProbe.Tls.Certificate
import NetProbe.Tls.Pem
import NetProbe.Tls.ServerName
import NetProbe.Net.Fault
set_option autoImplicit false

/-! # What a client brings to a handshake

The options of a handshake turned into what the client offers to the server and by which roots it
checks the certificate of the server. Options whose roots cannot be used are refused before
anything is sent. -/

namespace NetProbe.Tls

/-- How the certificate of the server is checked. -/
inductive Trust where
  /-- Not at all. -/
  | anyone
  /-- By the roots that come with the program. -/
  | bundled
  /-- By roots of the caller. -/
  | roots (certificates : List (List UInt8))
deriving DecidableEq, Repr

/-- What a client offers and asks for. -/
structure Offer where
  serverName : String
  /-- The protocols of the application, the preferred one first. -/
  protocols : List String
  trust : Trust
deriving DecidableEq, Repr

/-- Why roots cannot be used. -/
inductive RootFault where
  | unreadable (fault : Pem.Fault)
  | malformed
  | none
deriving Repr

def RootFault.message : RootFault → String
  | unreadable fault => "cannot parse PEM certificate: " ++ fault.message
  | malformed => "cannot use certificate: " ++ (TlsFault.certificate .badEncoding).message
  | none => "no usable certificate in x509_certs"

/-- The roots in one file, up to the first fault in it. -/
def rootsOfFile (file : String) : Except RootFault (List (List UInt8)) :=
  let found := Pem.certificates file
  if found.certificates.all Certificate.isWellFormed then
    match found.fault with
    | some fault => .error (.unreadable fault)
    | .none => .ok found.certificates
  else .error .malformed

/-- How the options ask to check the certificate of the server. -/
def trustOf (o : HandshakeOptions) : Except RootFault Trust :=
  if o.skipVerify then .ok .anyone
  else if o.certificates.isEmpty then .ok .bundled
  else match o.certificates.mapM rootsOfFile with
    | .error fault => .error fault
    | .ok roots =>
      if roots.flatten.isEmpty then .error .none else .ok (.roots roots.flatten)

/-- The name that the client sends: the one of the options, else the domain of the endpoint. -/
def serverNameOf (o : HandshakeOptions) (domain : String) : String :=
  o.sni.getD domain

/-- The protocols that the client offers. -/
def protocolsOf (o : HandshakeOptions) (default : List String) : List String :=
  o.alpn.getD default

/-- What the client offers, by default with these protocols. -/
def offerOf (o : HandshakeOptions) (default : List String) (domain : String) :
    Except RootFault Offer :=
  (trustOf o).map fun trust =>
    { serverName := serverNameOf o domain, protocols := protocolsOf o default, trust }

end NetProbe.Tls
