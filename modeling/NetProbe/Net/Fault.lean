import NetProbe.Net.SystemError
import NetProbe.Text.Part
import NetProbe.Text.Quoted
set_option autoImplicit false

/-! # Faults of the network and their names

What goes wrong below the operations: an error of the operating system, one of TLS, one of QUIC, or
a context that ends while an attempt is under way. Observations do not show these faults but the
name of the failure that each amounts to; the names are few, and a fault without one is an unknown
failure with its message. -/

namespace NetProbe

/-! ## Names of failures -/

namespace FailureName

def connectionRefused : String := "connection_refused"
def connectionReset : String := "connection_reset"
def timeout : String := "generic_timeout_error"
def hostUnreachable : String := "host_unreachable"
def networkUnreachable : String := "network_unreachable"
def endOfStream : String := "eof_error"
def interrupted : String := "interrupted"
def tlsInvalidHostname : String := "ssl_invalid_hostname"
def tlsUnknownAuthority : String := "ssl_unknown_authority"
def tlsInvalidCertificate : String := "ssl_invalid_certificate"
def tlsFailedHandshake : String := "ssl_failed_handshake"
def dnsNoSuchDomain : String := "dns_nxdomain_error"
def dnsServerFailure : String := "dns_server_failure"
def dnsNoAnswer : String := "dns_no_answer"

/-- The name of a failure that has no name of its own. -/
def unknown (message : String) : String := "unknown_failure: " ++ message

end FailureName

/-! ## Contexts that end -/

/-- Why a context ended an attempt. -/
inductive Interruption where
  | deadlineExceeded
  | cancelled
deriving DecidableEq, Repr

def Interruption.failure : Interruption → String
  | .deadlineExceeded => FailureName.timeout
  | .cancelled => FailureName.interrupted

/-! ## TLS -/

/-- What is wrong with the certificate of a peer. -/
inductive CertificateFault where
  | wrongName
  /-- A certificate for other names than the expected one. -/
  | wrongNameAmong (expected : String) (presented : List String)
  | unknownIssuer
  | expired
  | notYetValid
  | revoked
  | badEncoding
  | badSignature
  | wrongPurpose
deriving DecidableEq, Repr

namespace CertificateFault

def message : CertificateFault → String
  | wrongName => "NotValidForName"
  | wrongNameAmong expected presented =>
      "certificate not valid for name " ++ Text.quote expected ++
        "; certificate is only valid for " ++ " or ".intercalate presented
  | unknownIssuer => "UnknownIssuer"
  | expired => "Expired"
  | notYetValid => "NotValidYet"
  | revoked => "Revoked"
  | badEncoding => "BadEncoding"
  | badSignature => "BadSignature"
  | wrongPurpose => "InvalidPurpose"

def failure : CertificateFault → String
  | wrongName | wrongNameAmong _ _ => FailureName.tlsInvalidHostname
  | unknownIssuer => FailureName.tlsUnknownAuthority
  | _ => FailureName.tlsInvalidCertificate

end CertificateFault

/-- Why TLS gives up. -/
inductive TlsFault where
  | certificate (fault : CertificateFault)
  | handshakeNotComplete
  | noCertificates
  | noCommonProtocol
  | decryption
  | handshakeFailureAlert
  | general (message : String)
deriving DecidableEq, Repr

namespace TlsFault

def message : TlsFault → String
  | certificate fault => "invalid peer certificate: " ++ fault.message
  | handshakeNotComplete => "handshake not complete"
  | noCertificates => "peer sent no certificates"
  | noCommonProtocol => "peer doesn't support any known protocol"
  | decryption => "cannot decrypt peer's message"
  | handshakeFailureAlert => "received fatal alert: HandshakeFailure"
  | general message => "unexpected error: " ++ message

def failure : TlsFault → String
  | certificate fault => fault.failure
  | _ => FailureName.tlsFailedHandshake

end TlsFault

/-! ## Input and output -/

/-- The sorts of input and output errors. -/
inductive IoKind where
  | addressInUse
  | addressNotAvailable
  | alreadyExists
  | argumentListTooLong
  | brokenPipe
  | connectionAborted
  | connectionRefused
  | connectionReset
  | crossesDevices
  | deadlock
  | directoryNotEmpty
  | executableFileBusy
  | fileTooLarge
  | hostUnreachable
  | interrupted
  | invalidData
  | invalidFilename
  | invalidInput
  | isADirectory
  | networkDown
  | networkUnreachable
  | notADirectory
  | notConnected
  | notFound
  | notSeekable
  | other
  | outOfMemory
  | permissionDenied
  | quotaExceeded
  | readOnlyFilesystem
  | resourceBusy
  | staleNetworkFileHandle
  | storageFull
  | timedOut
  | tooManyLinks
  | unexpectedEof
  | unsupported
  | wouldBlock
  | writeZero
deriving DecidableEq, Repr

namespace IoKind

/-- Every sort, in the order in which they are declared. -/
def all : List IoKind := [addressInUse, addressNotAvailable, alreadyExists, argumentListTooLong,
  brokenPipe, connectionAborted, connectionRefused, connectionReset, crossesDevices, deadlock,
  directoryNotEmpty, executableFileBusy, fileTooLarge, hostUnreachable, interrupted, invalidData,
  invalidFilename, invalidInput, isADirectory, networkDown, networkUnreachable, notADirectory,
  notConnected, notFound, notSeekable, other, outOfMemory, permissionDenied, quotaExceeded,
  readOnlyFilesystem, resourceBusy, staleNetworkFileHandle, storageFull, timedOut, tooManyLinks,
  unexpectedEof, unsupported, wouldBlock, writeZero]

def message : IoKind → String
  | addressInUse => "address in use"
  | addressNotAvailable => "address not available"
  | alreadyExists => "entity already exists"
  | argumentListTooLong => "argument list too long"
  | brokenPipe => "broken pipe"
  | connectionAborted => "connection aborted"
  | connectionRefused => "connection refused"
  | connectionReset => "connection reset"
  | crossesDevices => "cross-device link or rename"
  | deadlock => "deadlock"
  | directoryNotEmpty => "directory not empty"
  | executableFileBusy => "executable file busy"
  | fileTooLarge => "file too large"
  | hostUnreachable => "host unreachable"
  | interrupted => "operation interrupted"
  | invalidData => "invalid data"
  | invalidFilename => "invalid filename"
  | invalidInput => "invalid input parameter"
  | isADirectory => "is a directory"
  | networkDown => "network down"
  | networkUnreachable => "network unreachable"
  | notADirectory => "not a directory"
  | notConnected => "not connected"
  | notFound => "entity not found"
  | notSeekable => "seek on unseekable file"
  | other => "other error"
  | outOfMemory => "out of memory"
  | permissionDenied => "permission denied"
  | quotaExceeded => "quota exceeded"
  | readOnlyFilesystem => "read-only filesystem or storage medium"
  | resourceBusy => "resource busy"
  | staleNetworkFileHandle => "stale network file handle"
  | storageFull => "no storage space"
  | timedOut => "timed out"
  | tooManyLinks => "too many links"
  | unexpectedEof => "unexpected end of file"
  | unsupported => "unsupported"
  | wouldBlock => "operation would block"
  | writeZero => "write zero"

/-- The name of the failure that errors of this sort amount to, if it has one. -/
def failure? : IoKind → Option String
  | connectionRefused => some FailureName.connectionRefused
  | connectionReset | connectionAborted => some FailureName.connectionReset
  | timedOut => some FailureName.timeout
  | hostUnreachable => some FailureName.hostUnreachable
  | networkUnreachable => some FailureName.networkUnreachable
  | unexpectedEof => some FailureName.endOfStream
  | interrupted => some FailureName.interrupted
  | _ => none

/-- The sort of an error of the operating system, as far as failures tell sorts apart. -/
def ofSystem (number : Nat) : IoKind :=
  if number = SystemError.interruptedCall then interrupted
  else if number = SystemError.networkUnreachable then networkUnreachable
  else if number = SystemError.connectionAborted then connectionAborted
  else if number = SystemError.connectionReset then connectionReset
  else if number = SystemError.timedOut then timedOut
  else if number = SystemError.connectionRefused then connectionRefused
  else if number = SystemError.hostUnreachable then hostUnreachable
  else other

end IoKind

/-- An error of input or output. -/
inductive IoError where
  /-- An error of the operating system, by its number. -/
  | system (number : Nat)
  | plain (kind : IoKind)
  | described (kind : IoKind) (message : String)
  /-- An error of the TLS layer that a read or write ran into. -/
  | tls (kind : IoKind) (fault : TlsFault)
deriving DecidableEq, Repr

namespace IoError

def kind : IoError → IoKind
  | system number => IoKind.ofSystem number
  | plain kind | described kind _ | tls kind _ => kind

def message : IoError → String
  | system number => SystemError.message number
  | plain kind => kind.message
  | described _ message => message
  | tls _ fault => fault.message

/-- The failure that the error amounts to. An error of the TLS layer counts as such, whatever its
    sort. -/
def failure : IoError → String
  | tls _ fault => fault.failure
  | e => e.kind.failure?.getD (FailureName.unknown e.message)

/-- The words by which resolvers say that a name does not exist. -/
def noSuchNameWords : List String :=
  ["not known", "No address associated", "nodename nor servname", "No such host"]

/-- The words by which resolvers say that they could not find out. -/
def noResolverWords : List String :=
  ["Temporary failure", "try again"]

/-- The failure that the error amounts to when it came from looking up a name. -/
def lookupFailure (e : IoError) : String :=
  if noSuchNameWords.any (Text.holds e.message) then FailureName.dnsNoSuchDomain
  else if noResolverWords.any (Text.holds e.message) then FailureName.dnsServerFailure
  else e.failure

/-- The text that bytes spell which were read, if they could be read. -/
def textOf : Except IoError ByteArray → Except IoError String
  | .error e => .error e
  | .ok bytes =>
    match String.fromUTF8? bytes with
    | some text => .ok text
    | none => .error (.described .invalidData "stream did not contain valid UTF-8")

end IoError

/-! ## QUIC -/

/-- The errors that one side of a QUIC connection tells the other. -/
inductive TransportCode where
  | internalError
  | connectionRefused
  | protocolViolation
  /-- An alert of TLS, by its number. -/
  | alert (number : UInt8)
deriving DecidableEq, Repr

def TransportCode.message : TransportCode → String
  | internalError =>
      "the endpoint encountered an internal error and cannot continue with the connection"
  | connectionRefused => "the server refused to accept a new connection"
  | protocolViolation =>
      "detected an error with protocol compliance that was not covered by more specific error codes"
  | alert number =>
      "the cryptographic handshake failed: error " ++ toString number.toNat

/-- Why a QUIC connection is not established. -/
inductive QuicFault where
  | timedOut
  | reset
  | closedHere
  | versionMismatch
  | identifiersExhausted
  | transport (code : TransportCode) (reason : String)
  | other (message : String)
deriving DecidableEq, Repr

namespace QuicFault

def message : QuicFault → String
  | timedOut => "timed out"
  | reset => "reset by peer"
  | closedHere => "closed"
  | versionMismatch => "peer doesn't implement any supported version"
  | identifiersExhausted => "CIDs exhausted"
  | transport code reason =>
      code.message ++ (if reason.isEmpty then "" else ": " ++ reason)
  | other message => message

def failure : QuicFault → String
  | timedOut => FailureName.timeout
  | reset => FailureName.connectionReset
  | transport (.alert _) _ => FailureName.tlsFailedHandshake
  | fault => FailureName.unknown fault.message

end QuicFault

end NetProbe
