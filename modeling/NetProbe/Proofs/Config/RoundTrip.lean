import Mathlib.Control.Monad.Basic
import NetProbe.Config.Document
import NetProbe.Proofs.Toml.Tables
set_option autoImplicit false

/-! # Configurations survive being written

Every section is written as a table with a line for each entry, and its entries hold all there is
of it (`Entry.Complete`), so what is written is read back whatever the defaults are. A document that
is written can only be refused for a fault of the configuration itself: `Config.ofToml_toToml`. -/

namespace NetProbe

/-! ## Settings -/

namespace Setting

/-- The value that a setting is written as. -/
def toValue : Setting → Toml
  | .number n => .integer n.toNat
  | .text s => .string s

theorem ofToml_toValue (s : Setting) : ofToml s.toValue = some s := by
  cases s with
  | number n =>
    have hlt := n.toNat_lt
    have hrange : 0 ≤ (n.toNat : Int) ∧ (n.toNat : Int) ≤ 18446744073709551615 := by omega
    rw [toValue, ofToml, if_pos hrange, Int.toNat_natCast, UInt64.ofNat_toNat]
  | text s => rfl

theorem spells_toToml (s : Setting) : Toml.Spells s.toToml s.toValue := by
  cases s with
  | number n => exact Toml.spells_writeNat n.toNat
  | text s => exact Toml.spells_writeText s

end Setting

/-! ## Sections -/

/-- Entries under different names, without quotes, that together hold all there is of a section. -/
structure Entry.Complete {σ : Type} (entries : List (Entry σ)) : Prop where
  bare : ∀ e ∈ entries, Toml.IsBareKey e.name.toList
  nodup : (entries.map (·.name)).Nodup
  restore : ∀ d r : σ, entries.foldlM (fun d e => e.set (e.get r) d) d = some r

theorem Timeouts.complete_entries : Entry.Complete entries where
  bare := by decide +kernel
  nodup := by decide +kernel
  restore _ _ := rfl

theorem HttpDefaults.complete_entries : Entry.Complete entries where
  bare := by decide +kernel
  nodup := by decide +kernel
  restore _ _ := rfl

theorem Logging.complete_entries : Entry.Complete entries where
  bare := by decide +kernel
  nodup := by decide +kernel
  restore _ _ := rfl

namespace Config

section Sections

variable {σ : Type} {entries : List (Entry σ)}

/-- The members of the table that a section is written as. -/
def sectionMembers (entries : List (Entry σ)) (r : σ) : List (String × Toml) :=
  entries.map fun e => (e.name, (e.get r).toValue)

theorem nodup_sectionMembers (h : Entry.Complete entries) (r : σ) :
    ((sectionMembers entries r).map (·.1)).Nodup := by
  rw [sectionMembers, List.map_map]
  exact h.nodup

theorem readTable_eq_foldlM {members : List (String × Toml)} {r : σ}
    (h : ∀ e ∈ entries, Toml.find? e.name members = some (e.get r).toValue) (d : σ) :
    readTable entries members d = entries.foldlM (fun d e => e.set (e.get r) d) d := by
  induction entries generalizing d with
  | nil => rfl
  | cons e es ih =>
    obtain ⟨he, hes⟩ := List.forall_mem_cons.1 h
    have hset : setEntry e (e.get r).toValue d = e.set (e.get r) d := by
      rw [setEntry, Setting.ofToml_toValue, Option.bind_some]
    rw [readTable, he, List.foldlM_cons]
    -- The members stay those of the whole table, whatever entries are left to read.
    simp only [hset, funext (ih hes), Option.bind_eq_bind]

theorem readSection_sectionMembers (h : Entry.Complete entries) (d r : σ) :
    readSection entries d (some (.table (sectionMembers entries r))) = some r := by
  have hfind (e : Entry σ) (he : e ∈ entries) :
      Toml.find? e.name (sectionMembers entries r) = some (e.get r).toValue :=
    Toml.find?_of_mem (nodup_sectionMembers h r) (List.mem_map.2 ⟨e, he, rfl⟩)
  rw [readSection, readTable_eq_foldlM hfind, h.restore]

theorem lines_writeSection (h : Entry.Complete entries) (name : String)
    (hname : Toml.IsBareKey name.toList) (r : σ) :
    Toml.Lines (writeSection name entries r)
      (Toml.tableStatements (name, sectionMembers entries r)) := by
  -- By induction on any entries, for the tail of a complete list is not complete.
  have hassigned {es : List (Entry σ)} (hes : ∀ e ∈ es, Toml.IsBareKey e.name.toList) :
      Toml.Lines (es.flatMap fun e => Toml.writeAssignment e.name.toList (e.get r).toToml)
        ((sectionMembers es r).map fun m => .assign [] m.1 m.2) := by
    induction es with
    | nil => exact .nil
    | cons e es ih =>
      obtain ⟨he, hes⟩ := List.forall_mem_cons.1 hes
      have hline := Toml.line_writeAssignment he (e.get r).spells_toToml
      rw [String.ofList_toList] at hline
      exact .line hline (ih hes)
  have hheader := Toml.line_writeHeader hname
  rw [String.ofList_toList] at hheader
  exact .line hheader (hassigned h.bare)

end Sections

/-! ## Documents -/

/-- The tables that a configuration is written as. -/
def tables (c : Config) : List (String × List (String × Toml)) := [
  ("timeouts", sectionMembers Timeouts.entries c.timeouts),
  ("http", sectionMembers HttpDefaults.entries c.http),
  ("logging", sectionMembers Logging.entries c.logging)]

theorem parse?_toToml (c : Config) :
    Toml.parse? c.toToml = some (c.tables.map fun t => (t.1, .table t.2)) := by
  have hblank : Toml.Lines ['\n'] [] := .blank .nil
  have htimeouts := lines_writeSection Timeouts.complete_entries "timeouts"
    (by decide +kernel) c.timeouts
  have hhttp := lines_writeSection HttpDefaults.complete_entries "http"
    (by decide +kernel) c.http
  have hlogging := lines_writeSection Logging.complete_entries "logging"
    (by decide +kernel) c.logging
  have hlines := (((htimeouts.append hblank).append hhttp).append hblank).append hlogging
  have hnames : (c.tables.map (·.1)).Nodup := by
    change ["timeouts", "http", "logging"].Nodup
    decide +kernel
  have hkeys : ∀ t ∈ c.tables, (t.2.map (·.1)).Nodup := by
    intro t ht
    simp only [tables, List.mem_cons, List.not_mem_nil, or_false] at ht
    rcases ht with rfl | rfl | rfl
    · exact nodup_sectionMembers Timeouts.complete_entries c.timeouts
    · exact nodup_sectionMembers HttpDefaults.complete_entries c.http
    · exact nodup_sectionMembers Logging.complete_entries c.logging
  rw [toToml, Toml.parse?_of_lines hlines (by nofun), ← Toml.ofStatements_tables hnames hkeys]
  simp [tables]

theorem ofMembers_tables (c : Config) :
    ofMembers (c.tables.map fun t => (t.1, .table t.2)) = some c := by
  have htimeouts := readSection_sectionMembers Timeouts.complete_entries {} c.timeouts
  have hhttp := readSection_sectionMembers HttpDefaults.complete_entries {} c.http
  have hlogging := readSection_sectionMembers Logging.complete_entries {} c.logging
  simp only [ofMembers, tables, List.map_cons, Toml.find?, List.find?_cons, String.reduceBEq,
    Option.map_some, htimeouts, hhttp, hlogging, Option.bind_eq_bind, Option.bind_some]
  rfl

/-- What is written is read back, and then checked. -/
theorem ofToml_toToml (c : Config) : ofToml c.toToml = c.validate := by
  rw [ofToml, parse?_toToml, Option.bind_some, ofMembers_tables]

/-! ## Accepted configurations -/

/-- What a configuration is accepted for: no limit is zero, something of a body is kept, and the log
    level is known. -/
structure Accepted (c : Config) : Prop where
  dnsLookup : 0 < c.timeouts.dnsLookup
  tcpConnect : 0 < c.timeouts.tcpConnect
  tlsHandshake : 0 < c.timeouts.tlsHandshake
  quicHandshake : 0 < c.timeouts.quicHandshake
  httpTransaction : 0 < c.timeouts.httpTransaction
  snapshotSize : 0 < c.http.snapshotSize
  level : ∃ level, c.level = some level

theorem accepted_iff {c : Config} :
    c.Accepted ↔ (∀ l ∈ c.limits, 0 < l.2) ∧ 0 < c.http.snapshotSize ∧ c.level.isSome = true := by
  simp only [limits, List.forall_mem_cons, Option.isSome_iff_exists]
  constructor
  · intro h
    exact ⟨⟨h.dnsLookup, h.tcpConnect, h.tlsHandshake, h.quicHandshake, h.httpTransaction, nofun⟩,
      h.snapshotSize, h.level⟩
  · rintro ⟨⟨hdns, htcp, htls, hquic, hhttp, -⟩, hsize, hlevel⟩
    exact ⟨hdns, htcp, htls, hquic, hhttp, hsize, hlevel⟩

theorem fault?_eq_none_iff {c : Config} : c.fault? = none ↔ c.Accepted := by
  have hlimits : (∀ l ∈ c.limits, 0 < l.2) ↔ c.limits.find? (fun l => l.2 == 0) = none := by
    simp only [List.find?_eq_none, beq_iff_eq, UInt64.pos_iff_ne_zero, ne_eq]
  rw [accepted_iff, hlimits, UInt64.pos_iff_ne_zero, fault?]
  cases c.limits.find? fun l => l.2 == 0 with
  | some l => simp
  | none =>
    by_cases hsize : c.http.snapshotSize = 0
    · simp [hsize]
    · cases c.level <;> simp [hsize]

theorem validate_eq_ok_iff {c d : Config} : c.validate = .ok d ↔ d = c ∧ c.Accepted := by
  rw [← fault?_eq_none_iff, validate]
  cases c.fault? with
  | none => simp [eq_comm]
  | some reason => simp

theorem accepted_of_ofToml {text : String} {c : Config} (h : ofToml text = .ok c) : c.Accepted := by
  rw [ofToml] at h
  split at h
  · obtain ⟨rfl, haccepted⟩ := validate_eq_ok_iff.1 h
    exact haccepted
  · cases h

theorem Accepted.ofToml_toToml {c : Config} (h : c.Accepted) : ofToml c.toToml = .ok c := by
  rw [Config.ofToml_toToml, validate_eq_ok_iff]
  exact ⟨rfl, h⟩

/-- An accepted configuration is written as a document that is read as the same configuration, which
    is written as the same document; and nothing that is done with it fails for its limits, its size
    of snapshots or its log level. -/
theorem survives_writing {text : String} {c : Config} (h : ofToml text = .ok c) :
    ofToml c.toToml = .ok c ∧
    (ofToml c.toToml).map toToml = .ok c.toToml ∧
    c.Accepted := by
  have haccepted := accepted_of_ofToml h
  have hread := haccepted.ofToml_toToml
  exact ⟨hread, by rw [hread]; rfl, haccepted⟩

theorem survives_writing_of_partial_sections : let text :=
      "[logging]\nlevel = 'DeBug'\n\n[http]\naccept = 'a\\b\"c'\n" ++
        "user_agent = \"\"\"\n\"one\" and ''two''\nthree\\u0007 \"\"\"\n" ++
        "timeouts.evaluation_secs = 1\n[timeouts]\nevaluation_secs = 18446744073709551615\n"
    let c : Config := {
      timeouts := { evaluation := 18446744073709551615 }
      http := { accept := "a\\b\"c", userAgent := "\"one\" and ''two''\nthree\x07 " }
      logging := { level := "DeBug" } }
    ofToml text = .ok c ∧ ofToml c.toToml = .ok c ∧ (ofToml c.toToml).map toToml = .ok c.toToml ∧
      c.Accepted :=
  have h : ofToml _ = .ok _ := by decide +kernel
  ⟨h, survives_writing h⟩

end Config

end NetProbe
