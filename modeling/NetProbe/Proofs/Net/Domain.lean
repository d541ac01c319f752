import NetProbe.Proofs.Dns.Query
import NetProbe.Proofs.Program.Pieces
set_option autoImplicit false

/-! # One check of names and the other

A domain is checked when a program names it, and its name again when a query for it is written. Both
checks strip one dot and measure the labels, but only the first one looks at the characters. So a
domain is accepted if and only if a query can be written for it and its bytes are visible ASCII
(`exists_parseDomain_iff`). -/

namespace NetProbe

open Dns (IsName textBytes length_textBytes encodeQuery)

/-! ## Bytes and characters -/

/-- Whether a byte is that of a character which is printed and is no space. -/
def IsVisibleByte (b : UInt8) : Prop := 0x21 ≤ b.toNat ∧ b.toNat ≤ 0x7e

theorem isGraphic_iff (c : Char) :
    Domain.isGraphic c = true ↔ 0x21 ≤ c.toNat ∧ c.toNat ≤ 0x7e := by
  simp only [Domain.isGraphic, Bool.and_eq_true, decide_eq_true_eq]

/-- A character outside of ASCII has no visible byte, and one of ASCII has itself. -/
theorem visible_utf8EncodeChar_iff (c : Char) :
    (∀ b ∈ String.utf8EncodeChar c, IsVisibleByte b) ↔ Domain.isGraphic c = true := by
  rw [isGraphic_iff]
  constructor
  · intro h
    have hsize := c.utf8Size_pos
    rw [← String.length_utf8EncodeChar, List.length_pos_iff_exists_mem] at hsize
    obtain ⟨b, hb⟩ := hsize
    have hvisible := h b hb
    have hsmall : b.toNat < 128 := Nat.lt_of_le_of_lt hvisible.2 (by decide)
    rw [Text.eq_of_mem_utf8EncodeChar hb hsmall]
    exact hvisible
  · intro h b hb
    have hascii : c.val.toNat ≤ 127 := Nat.le_trans h.2 (by decide)
    rw [String.utf8EncodeChar, if_pos hascii, List.mem_singleton] at hb
    have hvalue : b.toNat = c.toNat := by
      rw [hb]
      exact UInt8.toNat_ofNat_of_lt' (Nat.lt_of_le_of_lt hascii (by decide))
    unfold IsVisibleByte
    rwa [hvalue]

theorem visible_toBytes_iff (text : String) :
    (∀ b ∈ Text.toBytes text, IsVisibleByte b) ↔
      ∀ c ∈ text.toList, Domain.isGraphic c = true := by
  rw [Text.toBytes_eq_flatMap]
  simp only [List.mem_flatMap, ← visible_utf8EncodeChar_iff]
  constructor
  · exact fun h c hc b hb => h b ⟨c, hc, hb⟩
  · rintro h b ⟨c, hc, hb⟩
    exact h c hc b hb

/-! ## Characters of labels -/

/-- What holds of the separator and of every character of the parts holds of all characters. -/
theorem forall_mem_splitChars {P : Char → Prop} {sep : Char} (hsep : P sep) (cs : List Char) :
    (∀ part ∈ splitChars sep cs, ∀ c ∈ part, P c) ↔ ∀ c ∈ cs, P c := by
  induction cs with
  | nil => simp [splitChars]
  | cons c cs ih =>
    rw [List.forall_mem_cons, splitChars, ← ih]
    by_cases hc : c = sep
    · simp [hc, hsep]
    · rw [if_neg hc]
      cases hparts : splitChars sep cs with
      | nil => exact absurd hparts (splitChars_ne_nil sep cs)
      | cons part parts => simp [and_assoc]

/-- The dot at the end is visible too. -/
theorem forall_mem_withoutDot {P : Char → Prop} (hdot : P '.') (cs : List Char) :
    (∀ c ∈ Domain.withoutDot cs, P c) ↔ ∀ c ∈ cs, P c := by
  unfold Domain.withoutDot
  split
  · next hlast =>
    obtain ⟨rest, rfl⟩ := List.getLast?_eq_some_iff.1 hlast
    simp [or_imp, forall_and, hdot]
  · rfl

theorem isLabel_iff (label : List Char) :
    Domain.isLabel label = true ↔
      (1 ≤ (textBytes label).length ∧ (textBytes label).length ≤ 63) ∧
        ∀ c ∈ label, Domain.isGraphic c = true := by
  have hempty : label.isEmpty = false ↔ 1 ≤ (textBytes label).length := by
    cases label with
    | nil => simp
    | cons c label =>
      have hsize := c.utf8Size_pos
      rw [Dns.textBytes_eq, List.flatMap_cons, List.length_append, String.length_utf8EncodeChar]
      simp only [List.isEmpty_cons, true_iff]
      omega
  have hlength : Domain.maxLabelLength = 63 := rfl
  simp only [Domain.isLabel, Bool.and_eq_true, Bool.not_eq_true', hempty, decide_eq_true_eq,
    List.all_eq_true, ← length_textBytes, hlength]

/-! ## Domains -/

theorem isName_iff (name : List Char) :
    IsName name ↔
      (name.isEmpty || decide (Domain.maxLength < Text.byteCount name)) = false ∧
        ∀ label ∈ Domain.labels name,
          1 ≤ (textBytes label).length ∧ (textBytes label).length ≤ 63 := by
  simp only [Bool.or_eq_false_iff, List.isEmpty_eq_false_iff, decide_eq_false_iff_not, Nat.not_lt,
    ← length_textBytes]
  constructor
  · exact fun h => ⟨⟨h.nonempty, h.length⟩, h.labels⟩
  · rintro ⟨⟨hnonempty, hlength⟩, hlabels⟩
    exact ⟨hnonempty, hlength, hlabels⟩

/-- A domain is accepted, as it is, if its name can be asked for and is visible. -/
theorem parseDomain_eq_ok_iff {text domain : String} :
    parseDomain text = .ok domain ↔
      (IsName (Domain.withoutDot text.toList) ∧
        ∀ c ∈ text.toList, Domain.isGraphic c = true) ∧ domain = text := by
  have hgraphic : Domain.isGraphic '.' = true := by decide
  rw [← forall_mem_withoutDot hgraphic text.toList]
  simp only [parseDomain]
  generalize Domain.withoutDot text.toList = name
  rw [isName_iff, ← forall_mem_splitChars hgraphic name, and_assoc, and_assoc]
  by_cases hlong : (name.isEmpty || decide (Domain.maxLength < Text.byteCount name)) = true
  · simp only [hlong, if_true, Bool.true_eq_false, false_and]
    simp
  · simp only [hlong, Bool.false_eq_true, if_false, true_and]
    -- Each label is of the right length, and each is visible: the two checks of `isLabel`.
    have hlabels : (Domain.labels name).all Domain.isLabel = true ↔
        (∀ label ∈ Domain.labels name,
          1 ≤ (textBytes label).length ∧ (textBytes label).length ≤ 63) ∧
        ∀ part ∈ splitChars '.' name, ∀ c ∈ part, Domain.isGraphic c = true := by
      simp only [List.all_eq_true, isLabel_iff, forall_and]
      rfl
    rw [← and_assoc, ← hlabels]
    by_cases hall : (Domain.labels name).all Domain.isLabel = true
    · simp [hall, eq_comm]
    · simp [hall]

/-- What `parseDomain` accepts can be asked for and is visible, and the other way round. -/
theorem exists_parseDomain_iff (text : String) (id : UInt16) (type : Dns.RecordType) :
    (∃ domain, parseDomain text = .ok domain) ↔
      (∃ query, encodeQuery id text type = .ok query) ∧
        ∀ b ∈ Text.toBytes text, IsVisibleByte b := by
  rw [visible_toBytes_iff]
  simp only [parseDomain_eq_ok_iff, Dns.encodeQuery_eq_ok_iff, exists_and_left, exists_eq,
    and_true]

theorem exists_encodeQuery_of_parseDomain {text domain : String}
    (h : parseDomain text = .ok domain) (id : UInt16) (type : Dns.RecordType) :
    ∃ query, encodeQuery id text type = .ok query :=
  ((exists_parseDomain_iff text id type).1 ⟨domain, h⟩).1

end NetProbe
