import NetProbe.Config.Basic
import NetProbe.Net.Fault
import NetProbe.Toml.Reader
import NetProbe.Toml.Writer
set_option autoImplicit false

/-! # Configurations as documents

A configuration is read from a TOML document with a table for each section. Tables and entries that
are missing have their defaults, and those with unknown names are passed over. A section may also be
a list of its values in order. Writing spells out every entry. -/

namespace NetProbe

/-- The setting that a value spells. -/
def Setting.ofToml : Toml → Option Setting
  | .integer n => if 0 ≤ n ∧ n ≤ 18446744073709551615 then some (.number (UInt64.ofNat n.toNat)) else none
  | .string s => some (.text s)
  | _ => none

def Setting.toToml : Setting → List Char
  | .number n => Toml.writeNat n.toNat
  | .text s => Toml.writeText s.toList

namespace Config

variable {σ : Type}

/-- Sets an entry to what a value spells. -/
def setEntry (e : Entry σ) (v : Toml) (r : σ) : Option σ :=
  (Setting.ofToml v).bind fun s => e.set s r

/-- Sets the entries that a table names. -/
def readTable : List (Entry σ) → List (String × Toml) → σ → Option σ
  | [], _, r => some r
  | e :: es, members, r =>
    match Toml.find? e.name members with
    | some v => (setEntry e v r).bind (readTable es members)
    | none => readTable es members r

/-- Sets the entries from the first on. -/
def readList : List (Entry σ) → List Toml → σ → Option σ
  | e :: es, v :: vs, r => (setEntry e v r).bind (readList es vs)
  | _, _, r => some r

/-- A section, or its defaults if the document has none. -/
def readSection (entries : List (Entry σ)) (defaults : σ) : Option Toml → Option σ
  | none => some defaults
  | some (.table members) => readTable entries members defaults
  | some (.array items) => readList entries items defaults
  | some _ => none

/-- The configuration that the members of a document spell, before any check. -/
def ofMembers (members : List (String × Toml)) : Option Config := do
  let timeouts ← readSection Timeouts.entries {} (Toml.find? "timeouts" members)
  let http ← readSection HttpDefaults.entries {} (Toml.find? "http" members)
  let logging ← readSection Logging.entries {} (Toml.find? "logging" members)
  return { timeouts, http, logging }

/-- The accepted configuration that a document spells. -/
def ofToml (text : String) : Except ConfigError Config :=
  match (Toml.parse? text).bind ofMembers with
  | some c => c.validate
  | none => .error .malformed

/-- The configuration in a file, given what reading the file came to. -/
def ofFile (file : Except IoError ByteArray) : Except ConfigError Config :=
  match IoError.textOf file with
  | .ok text => ofToml text
  | .error e => .error (.io e.message)

/-- What is said when a file that was asked for cannot be used. -/
def loadMessage (path : String) : String := "Failed to load config file " ++ path

/-- A section with its header. -/
def writeSection (name : String) (entries : List (Entry σ)) (r : σ) : List Char :=
  Toml.writeHeader name.toList ++
    entries.flatMap fun e => Toml.writeAssignment e.name.toList (e.get r).toToml

/-- The document that spells a configuration. -/
def toToml (c : Config) : String :=
  String.ofList (writeSection "timeouts" Timeouts.entries c.timeouts ++ ['\n'] ++
    writeSection "http" HttpDefaults.entries c.http ++ ['\n'] ++
    writeSection "logging" Logging.entries c.logging)

end Config

end NetProbe
