import NetProbe.Net.Domain
set_option autoImplicit false

/-! # DNS messages

A query with one question as bytes, and the addresses in a response. A name is written label by
label, each after its length, and a zero byte ends it; in a response two bytes that point at an
earlier place may end it instead, and are not followed. `decodeResponse` reads the message once
from front to back and never looks behind its end: what is missing is a short message. -/

namespace NetProbe.Dns

abbrev Bytes := List UInt8

/-- Why a query cannot be written, or a response gives no addresses. -/
inductive MessageError where
  | nxDomain
  | refused
  | serverFailure
  | noAnswer
  /-- A response code that has no name here. -/
  | responseCode (code : Nat)
  | truncated
  | shortMessage
  | notAResponse
  | badLabel
  | nameTooLong
  | invalidName (domain : String)
deriving DecidableEq, Repr

def MessageError.message : MessageError → String
  | .nxDomain => "dns_nxdomain_error"
  | .refused => "dns_refused_error"
  | .serverFailure => "dns_server_failure"
  | .noAnswer => "dns_no_answer"
  | .responseCode code => "unknown_failure: dns rcode " ++ toString code
  | .truncated => "unknown_failure: truncated dns response"
  | .shortMessage => "unknown_failure: malformed dns message: short message"
  | .notAResponse => "unknown_failure: malformed dns message: not a response"
  | .badLabel => "unknown_failure: malformed dns message: bad label"
  | .nameTooLong => "unknown_failure: malformed dns message: name too long"
  | .invalidName domain => "unknown_failure: invalid domain name: " ++ domain

/-- The type of a question or a record. -/
abbrev RecordType := UInt16

def typeA : RecordType := 1
def typeAAAA : RecordType := 28
def typeCNAME : RecordType := 5

/-- The name of a record type. -/
def typeName (t : RecordType) : String :=
  if t = typeA then "A"
  else if t = typeAAAA then "AAAA"
  else if t = typeCNAME then "CNAME"
  else "UNKNOWN"

/-- The bytes of the header of a message. -/
def headerLength : Nat := 12

/-- A number of sixteen bits, the high byte first. -/
def word (n : Nat) : Bytes := bytesOfNumber 2 n

/-! ## Queries -/

/-- The bytes of a text. -/
def textBytes (cs : List Char) : Bytes :=
  (String.ofList cs).toUTF8.toList

/-- A label after its length. -/
def writeLabel (label : List Char) : Bytes :=
  UInt8.ofNat (Text.byteCount label) :: textBytes label

/-- A name, with the byte that ends it. -/
def writeName (labels : List (List Char)) : Bytes :=
  labels.flatMap writeLabel ++ [0]

/-- Whether a label has one to sixty-three bytes. -/
def fitsLabel (label : List Char) : Bool :=
  0 < Text.byteCount label && Text.byteCount label ≤ Domain.maxLabelLength

/-- The header of a query with one question that asks for recursion. -/
def queryHeader (id : UInt16) : Bytes :=
  word id.toNat ++ word 0x0100 ++ word 1 ++ word 0 ++ word 0 ++ word 0

/-- The query for the records of a type that a domain has. -/
def encodeQuery (id : UInt16) (domain : String) (type : RecordType) :
    Except MessageError Bytes :=
  let name := Domain.withoutDot domain.toList
  if name.isEmpty || Domain.maxLength < Text.byteCount name then .error (.invalidName domain)
  else if (Domain.labels name).all fitsLabel then
    .ok (queryHeader id ++ writeName (Domain.labels name) ++ word type.toNat ++ word 1)
  else .error (.invalidName domain)

/-- The identifier of a message with a complete header. -/
def messageId (msg : Bytes) : Option UInt16 :=
  if headerLength ≤ msg.length then some (UInt16.ofNat (numberOfBytes (msg.take 2))) else none

/-! ## Responses -/

/-- What is read from the front of the bytes, and the rest. -/
abbrev Step (α : Type) := Except MessageError (α × Bytes)

/-- So many bytes. -/
def take (n : Nat) (bytes : Bytes) : Step Bytes :=
  if n ≤ bytes.length then .ok (bytes.take n, bytes.drop n) else .error .shortMessage

/-- A number of so many bytes, the highest first. -/
def takeNumber (n : Nat) (bytes : Bytes) : Step Nat :=
  match take n bytes with
  | .ok (b, rest) => .ok (numberOfBytes b, rest)
  | .error e => .error e

/-- The most labels of a name, its end included. -/
def maxLabels : Nat := 128

/-- What follows a name of at most so many labels. -/
def skipName : Nat → Bytes → Except MessageError Bytes
  | 0, _ => .error .nameTooLong
  | n + 1, bytes =>
    match bytes with
    | [] => .error .shortMessage
    | b :: rest =>
      let length := b.toNat
      if length = 0 then .ok rest
      else if 0xc0 ≤ length then (take 1 rest).map (·.2)
      else if length < 0x40 then
        match take length rest with
        | .ok (_, rest) => skipName n rest
        | .error e => .error e
      else .error .badLabel

/-- What follows so many questions. -/
def skipQuestions : Nat → Bytes → Except MessageError Bytes
  | 0, bytes => .ok bytes
  | n + 1, bytes => do
    let rest ← skipName maxLabels bytes
    let (_, rest) ← take 4 rest
    skipQuestions n rest

/-- An address in a response, with the seconds for which it may be kept. -/
structure AddressRecord where
  address : Ip
  ttl : UInt32
deriving DecidableEq, Repr

/-- The address that the data of a record spells, if the record is of the wanted type. -/
def recordAddress (wanted type : RecordType) (data : Bytes) : Option Ip :=
  if type = typeA ∧ wanted = typeA ∧ data.length = 4 then some (.v4 (Ipv4.ofBytes data))
  else if type = typeAAAA ∧ wanted = typeAAAA ∧ data.length = 16 then
    some (.v6 (Ipv6.ofBytes data))
  else none

/-- The addresses of the wanted type in so many records. -/
def readRecords (wanted : RecordType) :
    Nat → Bytes → Except MessageError (List AddressRecord)
  | 0, _ => .ok []
  | n + 1, bytes => do
    let rest ← skipName maxLabels bytes
    let (type, rest) ← takeNumber 2 rest
    let (_, rest) ← takeNumber 2 rest
    let (ttl, rest) ← takeNumber 4 rest
    let (length, rest) ← takeNumber 2 rest
    let (data, rest) ← take length rest
    let more ← readRecords wanted n rest
    match recordAddress wanted (UInt16.ofNat type) data with
    | some address => return ⟨address, UInt32.ofNat ttl⟩ :: more
    | none => return more

/-- Fails for a message that is not a complete and successful response. -/
def checkFlags (flags : Nat) : Except MessageError Unit :=
  if flags / 0x8000 % 2 = 0 then .error .notAResponse
  else if flags / 0x0200 % 2 = 1 then .error .truncated
  else match flags % 16 with
    | 0 => .ok ()
    | 2 => .error .serverFailure
    | 3 => .error .nxDomain
    | 5 => .error .refused
    | code => .error (.responseCode code)

/-- The addresses of the wanted type in a response, in the order of their records. A successful
    response without one is an error too. -/
def decodeResponse (msg : Bytes) (wanted : RecordType) :
    Except MessageError (List AddressRecord) := do
  let (_, rest) ← takeNumber 2 msg
  let (flags, rest) ← takeNumber 2 rest
  let (questions, rest) ← takeNumber 2 rest
  let (answers, rest) ← takeNumber 2 rest
  let (_, rest) ← takeNumber 2 rest
  let (_, rest) ← takeNumber 2 rest
  checkFlags flags
  let rest ← skipQuestions questions rest
  let records ← readRecords wanted answers rest
  if records.isEmpty then throw .noAnswer
  return records

end NetProbe.Dns
