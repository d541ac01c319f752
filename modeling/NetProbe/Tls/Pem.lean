import NetProbe.Text.Base64
import NetProbe.Text.Utf8
set_option autoImplicit false

/-! # PEM files

A PEM file holds sections between a line that begins one and a line that ends it, with Base64 in
between; all other lines are passed over, and so are sections under labels without a meaning. -/

namespace NetProbe.Pem

abbrev Bytes := List UInt8

/-- What is wrong with a file. -/
inductive Fault where
  /-- A section without its last line. -/
  | noEnd (line : Bytes)
  /-- A first line that does not end in five dashes. -/
  | badStart (line : Bytes)
  | base64 (fault : Text.Base64.Fault)
deriving Repr

/-- Bytes as a list of numbers. -/
def numbers (bytes : Bytes) : String :=
  "[" ++ ", ".intercalate (bytes.map fun b => toString b.toNat) ++ "]"

def Fault.message : Fault → String
  | noEnd line => "missing section end marker: " ++ numbers line
  | badStart line => "illegal section start: " ++ numbers line
  | base64 fault => "base64 decode error: " ++ fault.message

/-- The labels of sections that have a meaning. -/
def labels : List String :=
  ["CERTIFICATE", "PUBLIC KEY", "RSA PRIVATE KEY", "PRIVATE KEY", "EC PRIVATE KEY", "X509 CRL",
    "CERTIFICATE REQUEST", "ECHCONFIG"]

def isBreak (b : UInt8) : Bool := b = 10 || b = 13

/-- The lines of a file, each ended by a line feed or a carriage return. -/
def lines : Bytes → List Bytes
  | [] => []
  | b :: rest =>
    if isBreak b then [] :: lines rest
    else match lines rest with
      | [] => [[b]]
      | line :: more => if rest.head?.any isBreak then [b] :: line :: more else (b :: line) :: more

def beginMark : Bytes := Text.toBytes "-----BEGIN "
def endMark : Bytes := Text.toBytes "-----END "
def dash : UInt8 := 45

/-- The label on the first line of a section: what is left behind the mark once the five dashes at
    the end are taken away, with spaces between and behind them. -/
def labelOf (line : Bytes) : Option Bytes :=
  let tail := line.reverse.takeWhile fun b => b = dash || b = 32 || isBreak b
  let lastDash := tail.reverse.dropWhile fun b => b != dash
  if tail.count dash = 5 then
    some ((line.take (line.length - lastDash.length)).drop beginMark.length)
  else none

/-- A section under way: its label and the Base64 text so far. -/
structure Part where
  label : Bytes
  text : Bytes := []

/-- The line that ends a section. -/
def Part.endLine (p : Part) : Bytes :=
  endMark ++ p.label ++ List.replicate 5 dash

/-- The certificates of a file up to its first fault, if it has one. -/
structure Found where
  certificates : List Bytes := []
  fault : Option Fault := none
deriving Repr

/-- The certificate in front of the others. -/
def Found.cons (certificate : Bytes) (f : Found) : Found :=
  { f with certificates := certificate :: f.certificates }

/-- The certificates in the lines of a file, of which a section may be under way. -/
def certificatesIn (part : Option Part) : List Bytes → Found
  | [] => { fault := part.map fun p => .noEnd p.endLine }
  | line :: rest =>
    if beginMark.isPrefixOf line then
      match labelOf line with
      | some label => certificatesIn (some { label }) rest
      | none => { fault := some (.badStart line) }
    else match part with
      | none => certificatesIn none rest
      | some p =>
        if p.endLine.isPrefixOf line then
          if !(labels.any fun l => Text.toBytes l == p.label) then certificatesIn none rest
          else match Text.Base64.decode p.text with
            | .error e => { fault := some (.base64 e) }
            | .ok der =>
              if p.label == Text.toBytes "CERTIFICATE" then
                (certificatesIn none rest).cons der
              else certificatesIn none rest
        else certificatesIn (some { p with text := p.text ++ line }) rest

/-- The certificates of a file. -/
def certificates (file : String) : Found :=
  certificatesIn none (lines (Text.toBytes file))

end NetProbe.Pem
