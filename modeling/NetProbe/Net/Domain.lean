import NetProbe.Net.Text
import NetProbe.Text.Quoted
import NetProbe.Text.Utf8
set_option autoImplicit false

/-! # Arguments that name places on the network

A domain name is a row of labels between dots, with an optional dot at its end. `parseDomain`,
`parseAddresses` and `parseEndpoint` check the texts that a program names such places with and say
what is wrong with one. -/

namespace NetProbe

/-- The parts of a text between the separators; a text without one is its only part. -/
def splitChars (sep : Char) : List Char → List (List Char)
  | [] => [[]]
  | c :: rest =>
    if c = sep then [] :: splitChars sep rest
    else match splitChars sep rest with
      | [] => [[c]]
      | part :: parts => (c :: part) :: parts

namespace Domain

/-- The most bytes of a name. -/
def maxLength : Nat := 253

/-- The most bytes of a label. -/
def maxLabelLength : Nat := 63

/-- A name without the dot at its end. -/
def withoutDot (cs : List Char) : List Char :=
  if cs.getLast? = some '.' then cs.dropLast else cs

/-- The labels of a name without a dot at its end. -/
def labels (cs : List Char) : List (List Char) :=
  splitChars '.' cs

/-- Whether a character is visible ASCII. -/
def isGraphic (c : Char) : Bool :=
  0x21 ≤ c.toNat && c.toNat ≤ 0x7e

/-- Whether a label is of one to sixty-three visible ASCII characters. -/
def isLabel (label : List Char) : Bool :=
  !label.isEmpty && Text.byteCount label ≤ maxLabelLength && label.all isGraphic

end Domain

/-- What is wrong with a text that should name a place. -/
inductive PlaceError where
  | domain (text : String)
  | noAddresses
  | address (text : String)
  | endpoint (text : String)
deriving DecidableEq, Repr

def PlaceError.message : PlaceError → String
  | .domain text => "invalid domain: " ++ Text.quote text
  | .noAddresses => "invalid addresses: empty list"
  | .address text => "invalid address: " ++ Text.quote text
  | .endpoint text => "invalid endpoint: " ++ Text.quote text

/-- A domain name, as it was given: labels of visible ASCII, at most 253 bytes of them with their
    dots, and perhaps one more dot. -/
def parseDomain (text : String) : Except PlaceError String :=
  let name := Domain.withoutDot text.toList
  if name.isEmpty || Domain.maxLength < Text.byteCount name then .error (.domain text)
  else if (Domain.labels name).all Domain.isLabel then .ok text
  else .error (.domain text)

/-- The addresses of a list of texts that is not empty. -/
def parseAddresses (texts : List String) : Except PlaceError (List Ip) :=
  if texts.isEmpty then .error .noAddresses
  else texts.mapM fun text =>
    match Ip.parse? text with
    | some a => .ok a
    | none => .error (.address text)

/-- An address with a port. -/
def parseEndpoint (text : String) : Except PlaceError SocketAddress :=
  match SocketAddress.parse? text with
  | some a => .ok a
  | none => .error (.endpoint text)

end NetProbe
