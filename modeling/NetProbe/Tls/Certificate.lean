import NetProbe.Text.Base64
set_option autoImplicit false

/-! # The shape of certificates

Certificates are nested elements, each a tag, a length and a content. `Certificate.isWellFormed`
says whether bytes have the shape of a certificate of version three or one, which is all that a
root certificate is asked for. -/

namespace NetProbe.Certificate

abbrev Bytes := List UInt8

/-! ## Elements -/

/-- Tags of elements. -/
inductive Tag where
  | boolean
  | integer
  | bitString
  | octetString
  | identifier
  | sequence
  /-- The wrapping of the version. -/
  | version
  /-- The wrapping of the extensions. -/
  | extensions
deriving DecidableEq, Repr

def Tag.code : Tag → UInt8
  | boolean => 0x01
  | integer => 0x02
  | bitString => 0x03
  | octetString => 0x04
  | identifier => 0x06
  | sequence => 0x30
  | version => 0xa0
  | extensions => 0xa3

/-- The number that bytes spell, the highest first. -/
def number (bytes : Bytes) : Nat :=
  bytes.foldl (fun n b => n * 256 + b.toNat) 0

/-- A length and what follows it. Up to 127 it is one byte; a longer one is the count of the bytes
    that spell it, at most four of them and none too many, and these bytes. -/
def readLength : Bytes → Option (Nat × Bytes)
  | [] => none
  | b :: rest =>
    if b < 0x80 then some (b.toNat, rest)
    else
      let count := b.toNat - 0x80
      let n := number (rest.take count)
      let least := if count = 1 then 0x80 else Nat.pow 256 (count - 1)
      if 1 ≤ count ∧ count ≤ 4 ∧ count ≤ rest.length ∧ least ≤ n then some (n, rest.drop count)
      else none

/-- The content of the element at the front, which has to have that tag, and what follows it. -/
def readElement (tag : Tag) : Bytes → Option (Bytes × Bytes)
  | [] => none
  | b :: rest =>
    if b = tag.code then
      match readLength rest with
      | some (n, rest) =>
        if n < 0xffff ∧ n ≤ rest.length then some (rest.take n, rest.drop n) else none
      | none => none
    else none

/-- What follows elements with these tags. -/
def skipElements : List Tag → Bytes → Option Bytes
  | [], bytes => some bytes
  | tag :: tags, bytes =>
    match readElement tag bytes with
    | some (_, rest) => skipElements tags rest
    | none => none

/-- The content of bytes that are one element. -/
def onlyElement (tag : Tag) (bytes : Bytes) : Option Bytes :=
  match readElement tag bytes with
  | some (content, []) => some content
  | _ => none

/-! ## Certificates -/

/-- Whether a content is an extension: an identifier, perhaps a mark, and the value. -/
def isExtension (content : Bytes) : Bool :=
  skipElements [.identifier, .octetString] content == some [] ||
    skipElements [.identifier, .boolean, .octetString] content == some []

/-- Whether bytes are extensions in a row. Each takes at least one byte, so as much `fuel` as there
    are bytes is enough. -/
def areExtensions (fuel : Nat) (bytes : Bytes) : Bool :=
  match fuel, bytes with
  | _, [] => true
  | 0, _ => false
  | fuel + 1, bytes =>
    match readElement .sequence bytes with
    | some (content, rest) => isExtension content && areExtensions fuel rest
    | none => false

/-- Whether bytes are the signed part of a certificate of version three. `algorithm` is the
    algorithm that the signature names. -/
def isThirdVersion (algorithm signed : Bytes) : Bool :=
  match readElement .version signed with
  | some ([0x02, 0x01, 0x02], rest) =>
    match skipElements [.integer] rest with
    | none => false
    | some rest =>
      match readElement .sequence rest with
      | none => false
      | some (named, rest) =>
        named == algorithm &&
          match skipElements [.sequence, .sequence, .sequence, .sequence] rest with
          | none => false
          | some [] => true
          | some rest =>
            match (onlyElement .extensions rest).bind (onlyElement .sequence) with
            | some extensions => areExtensions extensions.length extensions
            | none => false
  | _ => false

/-- Whether bytes are the signed part of a certificate of version one, which does not name its
    version. -/
def isFirstVersion (signed : Bytes) : Bool :=
  skipElements [.integer, .sequence, .sequence, .sequence, .sequence, .sequence] signed == some []

/-- Whether bytes have the shape of a certificate: the signed part, the algorithm of the signature
    and the signature, which is of whole bytes. -/
def isWellFormed (bytes : Bytes) : Bool :=
  match onlyElement .sequence bytes with
  | none => false
  | some content =>
    match readElement .sequence content with
    | none => false
    | some (signed, rest) =>
      match readElement .sequence rest with
      | none => false
      | some (algorithm, rest) =>
        match onlyElement .bitString rest with
        | some (unused :: _) =>
          (unused = 0 && isThirdVersion algorithm signed) || isFirstVersion signed
        | _ => false

end NetProbe.Certificate
