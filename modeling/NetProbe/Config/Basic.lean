import NetProbe.Json.Writer
import NetProbe.Text.Part
import NetProbe.Text.Quoted
set_option autoImplicit false

/-! # Configuration

How long the operations may take, what a request says unless the program overrides it, and how much
is logged. Each section is a list of entries, by which it is read and written in every format. An
accepted configuration has a positive limit on every operation, a positive size of body snapshots
and a known log level. -/

namespace NetProbe

/-- The value of a configuration entry. -/
inductive Setting where
  | number (n : UInt64)
  | text (s : String)
deriving DecidableEq, Repr

def Setting.toJson : Setting → Json
  | .number n => .ofNat n.toNat
  | .text s => .string s

/-- One entry of a section `σ`. -/
structure Entry (σ : Type) where
  name : String
  get : σ → Setting
  /-- Fails for a value of the wrong sort. -/
  set : Setting → σ → Option σ

namespace Entry

variable {σ : Type}

/-- An entry that holds a whole number. -/
def number (name : String) (get : σ → UInt64) (set : UInt64 → σ → σ) : Entry σ where
  name := name
  get := fun r => .number (get r)
  set
    | .number n, r => some (set n r)
    | .text _, _ => none

/-- An entry that holds a text. -/
def text (name : String) (get : σ → String) (set : String → σ → σ) : Entry σ where
  name := name
  get := fun r => .text (get r)
  set
    | .text s, r => some (set s r)
    | .number _, _ => none

end Entry

/-! ## Sections -/

/-- How many seconds the operations may take. -/
structure Timeouts where
  dnsLookup : UInt64 := 4
  tcpConnect : UInt64 := 15
  tlsHandshake : UInt64 := 10
  quicHandshake : UInt64 := 10
  httpTransaction : UInt64 := 10
  /-- For the whole evaluation; zero means without limit. -/
  evaluation : UInt64 := 0
deriving DecidableEq, Repr

def Timeouts.entries : List (Entry Timeouts) := [
  .number "dns_lookup_secs" (·.dnsLookup) fun n r => { r with dnsLookup := n },
  .number "tcp_connect_secs" (·.tcpConnect) fun n r => { r with tcpConnect := n },
  .number "tls_handshake_secs" (·.tlsHandshake) fun n r => { r with tlsHandshake := n },
  .number "quic_handshake_secs" (·.quicHandshake) fun n r => { r with quicHandshake := n },
  .number "http_transaction_secs" (·.httpTransaction) fun n r => { r with httpTransaction := n },
  .number "evaluation_secs" (·.evaluation) fun n r => { r with evaluation := n }]

/-- The seconds that the whole evaluation may take, if they are limited. -/
def Timeouts.evaluation? (t : Timeouts) : Option UInt64 :=
  if t.evaluation = 0 then none else some t.evaluation

/-- What requests say unless the program overrides it, and how much of a response is kept. -/
structure HttpDefaults where
  userAgent : String :=
    "Mozilla/5.0 (Windows NT 10.0; Win64; x64) AppleWebKit/537.36 (KHTML, like Gecko) " ++
      "Chrome/108.0.0.0 Safari/537.36"
  accept : String := "text/html,application/xhtml+xml,application/xml;q=0.9,*/*;q=0.8"
  acceptLanguage : String := "en-US;q=0.8,en;q=0.5"
  snapshotSize : UInt64 := 524288
deriving DecidableEq, Repr

def HttpDefaults.entries : List (Entry HttpDefaults) := [
  .text "user_agent" (·.userAgent) fun s r => { r with userAgent := s },
  .text "accept" (·.accept) fun s r => { r with accept := s },
  .text "accept_language" (·.acceptLanguage) fun s r => { r with acceptLanguage := s },
  .number "response_body_snapshot_size" (·.snapshotSize) fun n r => { r with snapshotSize := n }]

/-- How much is logged. -/
structure Logging where
  level : String := "info"
deriving DecidableEq, Repr

def Logging.entries : List (Entry Logging) := [
  .text "level" (·.level) fun s r => { r with level := s }]

structure Config where
  timeouts : Timeouts := {}
  http : HttpDefaults := {}
  logging : Logging := {}
deriving DecidableEq, Repr

/-! ## Log levels -/

/-- How much a log line matters, from the most to the least. -/
inductive LogLevel where
  | error
  | warn
  | info
  | debug
  | trace
deriving DecidableEq, Repr

namespace LogLevel

def name : LogLevel → String
  | error => "ERROR"
  | warn => "WARN"
  | info => "INFO"
  | debug => "DEBUG"
  | trace => "TRACE"

/-- The place of a level, counted from one. -/
def rank : LogLevel → Nat
  | error => 1
  | warn => 2
  | info => 3
  | debug => 4
  | trace => 5

def all : List LogLevel := [error, warn, info, debug, trace]

/-- The number that decimal digits spell, perhaps after a plus sign. -/
def numberOf (s : String) : Option Nat :=
  let cs := match s.toList with
    | '+' :: rest => rest
    | cs => cs
  if !cs.isEmpty && cs.all fun c => '0' ≤ c && c ≤ '9' then
    some (cs.foldl (fun n c => n * 10 + (c.toNat - 48)) 0)
  else none

/-- The level of a name in any case, or of a place. -/
def ofText (s : String) : Option LogLevel :=
  match numberOf s with
  | some n => all.find? fun l => l.rank == n
  | none => all.find? fun l => Text.sameIgnoringCase l.name s

end LogLevel

/-! ## Checks -/

/-- Why a configuration is not accepted. -/
inductive ConfigError where
  | load (reason : String)
  /-- The text is not a document, or an entry holds a value of the wrong sort. -/
  | malformed
  | invalid (reason : String)
  /-- The text cannot be read. -/
  | io (message : String)
deriving DecidableEq, Repr

def ConfigError.message : ConfigError → String
  | .load reason => "failed to load config: " ++ reason
  | .malformed => "failed to parse config"
  | .invalid reason => "validation failed: " ++ reason
  | .io message => "io: " ++ message

namespace Config

/-- The log level, if the configuration names one. -/
def level (c : Config) : Option LogLevel :=
  LogLevel.ofText c.logging.level

/-- The limits on operations, with the names of their entries. -/
def limits (c : Config) : List (String × UInt64) := [
  ("timeouts.dns_lookup_secs", c.timeouts.dnsLookup),
  ("timeouts.tcp_connect_secs", c.timeouts.tcpConnect),
  ("timeouts.tls_handshake_secs", c.timeouts.tlsHandshake),
  ("timeouts.quic_handshake_secs", c.timeouts.quicHandshake),
  ("timeouts.http_transaction_secs", c.timeouts.httpTransaction)]

/-- What is wrong with a configuration: the first limit that is zero, a snapshot of no bytes, or a
    level that is unknown. -/
def fault? (c : Config) : Option String :=
  match c.limits.find? fun l => l.2 == 0 with
  | some l => some (l.1 ++ " must be > 0")
  | none =>
    if c.http.snapshotSize = 0 then some "http.response_body_snapshot_size must be > 0"
    else if c.level.isNone then
      some ("logging.level: unknown level " ++ Text.quote c.logging.level)
    else none

/-- Accepts a configuration without a fault. -/
def validate (c : Config) : Except ConfigError Config :=
  match c.fault? with
  | some reason => .error (.invalid reason)
  | none => .ok c

/-- The entries of a section as members of a JSON object. -/
def sectionJson {σ : Type} (entries : List (Entry σ)) (r : σ) : Json :=
  Json.ofMembers (entries.map fun e => (e.name, (e.get r).toJson))

def toJson (c : Config) : Json :=
  Json.ofMembers [("timeouts", sectionJson Timeouts.entries c.timeouts),
    ("http", sectionJson HttpDefaults.entries c.http),
    ("logging", sectionJson Logging.entries c.logging)]

end Config

end NetProbe
