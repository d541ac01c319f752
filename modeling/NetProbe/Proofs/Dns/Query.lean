import NetProbe.Proofs.Dns.Response
import NetProbe.Proofs.Text.Parts
import NetProbe.Proofs.Text.Utf8
set_option autoImplicit false

/-! # Queries say what was asked

A name can be asked for when it is short enough and so is each of its labels (`IsName`), and the
query for such a name says the name, the type and nothing else (`Asks`). The labels stand after
their lengths, so they are read back from the query one by one (`readLabels_flatMap`), and joined by
dots they are the name again. Hence a query tells which name was asked for. -/

namespace NetProbe.Dns

/-! ## Bytes of a name -/

/-- The byte of a dot. -/
def dot : UInt8 := 0x2e

theorem textBytes_eq (cs : List Char) : textBytes cs = cs.flatMap String.utf8EncodeChar := by
  change Text.toBytes (String.ofList cs) = _
  rw [Text.toBytes_eq_flatMap, String.toList_ofList]

@[simp] theorem textBytes_nil : textBytes [] = [] := by
  rw [textBytes_eq, List.flatMap_nil]

@[simp] theorem textBytes_append (cs ds : List Char) :
    textBytes (cs ++ ds) = textBytes cs ++ textBytes ds := by
  rw [textBytes_eq, textBytes_eq, textBytes_eq, List.flatMap_append]

theorem textBytes_dot : textBytes ['.'] = [dot] := by
  rw [textBytes_eq]
  decide

theorem ofBytes?_textBytes (cs : List Char) :
    Text.ofBytes? (textBytes cs) = some (String.ofList cs) :=
  Text.ofBytes?_toBytes (String.ofList cs)

theorem length_textBytes (cs : List Char) : (textBytes cs).length = Text.byteCount cs := by
  have hfold (cs : List Char) (n : Nat) :
      cs.foldl (fun n c => n + c.utf8Size) n = n + (textBytes cs).length := by
    induction cs generalizing n with
    | nil => simp
    | cons c cs ih =>
      rw [List.foldl_cons, ih, textBytes_eq, textBytes_eq, List.flatMap_cons, List.length_append,
        String.length_utf8EncodeChar, Nat.add_assoc]
  rw [Text.byteCount, hfold, Nat.zero_add]

/-- The bytes of a text are those of its parts, with the separators between them. -/
theorem intercalate_textBytes (parts : List (List Char)) :
    [dot].intercalate (parts.map textBytes) = textBytes (['.'].intercalate parts) := by
  induction parts with
  | nil => simp
  | cons part parts ih =>
    cases parts with
    | nil => simp
    | cons next parts =>
      rw [List.map_cons] at ih
      simp only [List.map_cons, List.intercalate_cons_cons, textBytes_append, textBytes_dot, ih]

/-! ## Labels after their lengths -/

/-- A name in a query takes a byte for each of its labels, in the place of the dots. -/
theorem length_labelBytes {labels : List Bytes} (h : labels ≠ []) :
    (labels.flatMap WireName.labelBytes).length = ([dot].intercalate labels).length + 1 := by
  induction labels with
  | nil => exact absurd rfl h
  | cons label labels ih =>
    cases labels with
    | nil => simp [WireName.labelBytes]
    | cons next labels =>
      rw [List.flatMap_cons, List.intercalate_cons_cons, List.length_append, List.length_append,
        List.length_append, ih (by simp), WireName.labelBytes]
      simp
      omega

/-- Each label but the last is followed by a dot. -/
theorem length_le_of_intercalate {labels : List Bytes} (h : ∀ l ∈ labels, 1 ≤ l.length) :
    2 * labels.length ≤ ([dot].intercalate labels).length + 1 := by
  induction labels with
  | nil => simp
  | cons label labels ih =>
    obtain ⟨hlabel, hlabels⟩ := List.forall_mem_cons.1 h
    have hrest := ih hlabels
    cases labels with
    | nil =>
      simp
      omega
    | cons next labels =>
      simp only [List.intercalate_cons_cons, List.length_append, List.length_cons,
        List.length_nil] at hrest ⊢
      omega

/-- The labels of a name that the root ends, at most so many of them, and what follows it. -/
def readLabels : Nat → Bytes → Option (List Bytes × Bytes)
  | 0, _ => none
  | _ + 1, [] => none
  | n + 1, b :: rest =>
    if b = 0 then some ([], rest)
    else if b.toNat ≤ rest.length then
      (readLabels n (rest.drop b.toNat)).map fun r => (rest.take b.toNat :: r.1, r.2)
    else none

theorem readLabels_flatMap {labels : List Bytes}
    (hfit : ∀ l ∈ labels, 1 ≤ l.length ∧ l.length ≤ Domain.maxLabelLength) (n : Nat)
    (rest : Bytes) :
    readLabels (labels.length + n + 1) (labels.flatMap WireName.labelBytes ++ 0 :: rest) =
      some (labels, rest) := by
  induction labels with
  | nil => rfl
  | cons label labels ih =>
    obtain ⟨⟨hone, hmost⟩, hlabels⟩ := List.forall_mem_cons.1 hfit
    have hmost : label.length ≤ 63 := hmost
    have hlength : (UInt8.ofNat label.length).toNat = label.length :=
      UInt8.toNat_ofNat_of_lt' (by omega : label.length < 256)
    have hne : UInt8.ofNat label.length ≠ 0 := by
      intro hzero
      rw [hzero] at hlength
      exact absurd hlength (Nat.ne_of_lt hone)
    have hsucc : (label :: labels).length + n + 1 = labels.length + n + 1 + 1 := by
      rw [List.length_cons]
      omega
    rw [hsucc, List.flatMap_cons, List.append_assoc, WireName.labelBytes, List.cons_append,
      readLabels, if_neg hne, hlength, if_pos (by simp), List.take_left, List.drop_left,
      ih hlabels]
    rfl

/-! ## Names that can be asked for -/

/-- Whether a name, without the dot at its end, can be asked for. -/
structure IsName (name : List Char) : Prop where
  nonempty : name ≠ []
  length : (textBytes name).length ≤ 253
  labels : ∀ label ∈ Domain.labels name,
    1 ≤ (textBytes label).length ∧ (textBytes label).length ≤ 63

theorem fitsLabel_iff (label : List Char) :
    fitsLabel label = true ↔ 1 ≤ (textBytes label).length ∧ (textBytes label).length ≤ 63 := by
  rw [length_textBytes]
  simp only [fitsLabel, Bool.and_eq_true, decide_eq_true_eq]
  exact Iff.rfl

/-! ## What a query says -/

/-- The bytes of the labels of a name. -/
def labelsOf (name : List Char) : List Bytes :=
  (Domain.labels name).map textBytes

theorem intercalate_labelsOf (name : List Char) :
    [dot].intercalate (labelsOf name) = textBytes name := by
  rw [labelsOf, intercalate_textBytes, Domain.labels, intercalate_splitChars]

/-- A name as a query spells it: each label after its length, and the root. -/
def nameBytes (name : List Char) : Bytes :=
  (labelsOf name).flatMap WireName.labelBytes ++ [0]

theorem writeName_labels (name : List Char) : writeName (Domain.labels name) = nameBytes name := by
  rw [writeName, nameBytes, labelsOf, List.flatMap_map]
  congr 1
  refine List.flatMap_congr fun label _ => ?_
  rw [writeLabel, WireName.labelBytes, length_textBytes]

/-- A query is written for exactly the names that can be asked for. -/
theorem encodeQuery_eq_ok_iff {id : UInt16} {domain : String} {type : RecordType} {msg : Bytes} :
    encodeQuery id domain type = .ok msg ↔
      IsName (Domain.withoutDot domain.toList) ∧
      msg = queryHeader id ++ nameBytes (Domain.withoutDot domain.toList) ++ word type.toNat ++
        word 1 := by
  unfold encodeQuery Domain.maxLength
  generalize Domain.withoutDot domain.toList = name
  dsimp only
  rw [writeName_labels]
  by_cases hlong : (name.isEmpty || decide (253 < Text.byteCount name)) = true
  · have hname : ¬ IsName name := by
      intro h
      have hlength := h.length
      have hne := h.nonempty
      rw [length_textBytes] at hlength
      simp only [Bool.or_eq_true, List.isEmpty_iff, decide_eq_true_eq] at hlong
      rcases hlong with hlong | hlong
      · exact hne hlong
      · omega
    simp [hlong, hname]
  · have hshort : name ≠ [] ∧ (textBytes name).length ≤ 253 := by
      rw [length_textBytes]
      simp only [Bool.or_eq_true, List.isEmpty_iff, decide_eq_true_eq, not_or] at hlong
      exact ⟨hlong.1, by omega⟩
    by_cases hlabels : (Domain.labels name).all fitsLabel = true
    · have hname : IsName name :=
        ⟨hshort.1, hshort.2, fun label hmem =>
          (fitsLabel_iff label).1 (List.all_eq_true.1 hlabels label hmem)⟩
      simp only [hlong, hlabels, if_true, Bool.false_eq_true, if_false]
      simp [hname, eq_comm]
    · have hname : ¬ IsName name := by
        intro h
        exact hlabels (List.all_eq_true.2 fun label hmem =>
          (fitsLabel_iff label).2 (h.labels label hmem))
      simp only [hlong, hlabels, Bool.false_eq_true, if_false]
      simp [hname]

/-- A message with one question, which is for the records of a type that a name has. -/
structure Asks (msg : Bytes) (id : UInt16) (name : List Char) (type : RecordType) : Prop where
  /-- The identifier, of the flags the one that asks for recursion, one question and nothing else;
      the name; the type, and the class of the internet. -/
  layout : msg = (word id.toNat ++ word 0x0100 ++ word 1 ++ word 0 ++ word 0 ++ word 0) ++
    nameBytes name ++ word type.toNat ++ word 1
  nameLength : (nameBytes name).length ≤ 255
  identifier : messageId msg = some id
  /-- A reader that skips the name comes to the type. -/
  question : skipName maxLabels (msg.drop headerLength) = .ok (word type.toNat ++ word 1)
  /-- A reader of the labels finds the name. -/
  readBack : ∃ labels, readLabels maxLabels (msg.drop headerLength) =
      some (labels, word type.toNat ++ word 1) ∧
    Text.ofBytes? ([dot].intercalate labels) = some (String.ofList name)

section

variable {id : UInt16} {name : List Char} {type : RecordType}

theorem IsName.fit (h : IsName name) :
    ∀ l ∈ labelsOf name, 1 ≤ l.length ∧ l.length ≤ Domain.maxLabelLength := by
  intro l hl
  obtain ⟨label, hmem, rfl⟩ := List.mem_map.1 hl
  exact h.labels label hmem

/-- The most labels that a name can have, and its end, are within what readers take. -/
theorem IsName.few (h : IsName name) : ∃ n, maxLabels = (labelsOf name).length + n + 1 := by
  have hle := length_le_of_intercalate fun l hl => (h.fit l hl).1
  have hlength := h.length
  rw [intercalate_labelsOf] at hle
  exact ⟨maxLabels - (labelsOf name).length - 1, by unfold maxLabels; omega⟩

theorem drop_queryHeader (id : UInt16) (rest : Bytes) :
    (queryHeader id ++ rest).drop headerLength = rest := by
  have hlength : (queryHeader id).length = headerLength := rfl
  exact List.drop_left' hlength

theorem messageId_queryHeader (id : UInt16) (rest : Bytes) :
    messageId (queryHeader id ++ rest) = some id := by
  have htake : (queryHeader id ++ rest).take 2 = word id.toNat := rfl
  have hlength : headerLength ≤ (queryHeader id ++ rest).length := by
    rw [List.length_append]
    exact Nat.le_add_right 12 _
  have hid : id.toNat < 256 ^ 2 := id.toNat_lt
  rw [messageId, if_pos hlength, htake, word, numberOfBytes_bytesOfNumber, Nat.mod_eq_of_lt hid,
    UInt16.ofNat_toNat]

theorem IsName.readLabels (h : IsName name) (rest : Bytes) :
    readLabels maxLabels (nameBytes name ++ rest) = some (labelsOf name, rest) := by
  obtain ⟨n, hn⟩ := h.few
  rw [nameBytes, List.append_assoc, List.singleton_append, hn]
  exact readLabels_flatMap h.fit n rest

theorem IsName.skipName (h : IsName name) (rest : Bytes) :
    skipName maxLabels (nameBytes name ++ rest) = .ok rest := by
  obtain ⟨n, hn⟩ := h.few
  rw [nameBytes, List.append_assoc, hn, Nat.add_assoc, skipName_labels h.fit]
  rfl

theorem IsName.asks (h : IsName name) (id : UInt16) (type : RecordType) :
    Asks (queryHeader id ++ nameBytes name ++ word type.toNat ++ word 1) id name type := by
  have hne : labelsOf name ≠ [] := by
    rw [labelsOf, ne_eq, List.map_eq_nil_iff]
    exact splitChars_ne_nil '.' name
  constructor
  · rfl
  · have hlength := h.length
    have hbytes := length_labelBytes hne
    rw [intercalate_labelsOf] at hbytes
    rw [nameBytes, List.length_append, hbytes, List.length_singleton]
    omega
  · rw [List.append_assoc, List.append_assoc]
    exact messageId_queryHeader id _
  · rw [List.append_assoc, List.append_assoc, drop_queryHeader]
    exact h.skipName _
  · rw [List.append_assoc, List.append_assoc, drop_queryHeader]
    refine ⟨labelsOf name, h.readLabels _, ?_⟩
    rw [intercalate_labelsOf]
    exact ofBytes?_textBytes name

/-- A message asks for one name. -/
theorem Asks.name_eq {msg : Bytes} {name' : List Char} {id' : UInt16} {type' : RecordType}
    (h : Asks msg id name type) (h' : Asks msg id' name' type') : name = name' := by
  obtain ⟨labels, hread, hname⟩ := h.readBack
  obtain ⟨labels', hread', hname'⟩ := h'.readBack
  rw [hread] at hread'
  obtain ⟨rfl, -⟩ := Prod.mk.inj (Option.some.inj hread')
  rw [hname] at hname'
  exact String.ofList_injective (Option.some.inj hname')

end

/-- Queries are written for the names that can be asked for, say what was asked, and tell different
    names apart; a dot at the end of a domain makes no difference. -/
theorem encodeQuery_faithful (id : UInt16) (domain : String) (type : RecordType) :
    ((∃ msg, encodeQuery id domain type = .ok msg) ↔
      IsName (Domain.withoutDot domain.toList)) ∧
    ∀ msg, encodeQuery id domain type = .ok msg →
      Asks msg id (Domain.withoutDot domain.toList) type ∧
      ∀ other msg', encodeQuery id other type = .ok msg' →
        (msg = msg' ↔
          Domain.withoutDot domain.toList = Domain.withoutDot other.toList) := by
  constructor
  · constructor
    · rintro ⟨msg, hmsg⟩
      exact (encodeQuery_eq_ok_iff.1 hmsg).1
    · intro hname
      exact ⟨_, encodeQuery_eq_ok_iff.2 ⟨hname, rfl⟩⟩
  · intro msg hmsg
    obtain ⟨hname, rfl⟩ := encodeQuery_eq_ok_iff.1 hmsg
    refine ⟨hname.asks id type, ?_⟩
    intro other msg' hmsg'
    obtain ⟨hother, rfl⟩ := encodeQuery_eq_ok_iff.1 hmsg'
    constructor
    · intro heq
      have hasks := hother.asks id type
      rw [← heq] at hasks
      exact (hname.asks id type).name_eq hasks
    · intro heq
      rw [heq]

/-- A name with a character of two bytes, with and without the dot at its end. -/
theorem encodeQuery_faithful_accented :
    let msg : Bytes := [0xbe, 0xef, 1, 0, 0, 1, 0, 0, 0, 0, 0, 0,
      2, 0xc3, 0xa9, 3, 0x6f, 0x72, 0x67, 0, 0, 28, 0, 1]
    encodeQuery 0xbeef "é.org." typeAAAA = .ok msg ∧ encodeQuery 0xbeef "é.org" typeAAAA = .ok msg ∧
    Asks msg 0xbeef "é.org".toList typeAAAA := by
  intro msg
  have hdotted : encodeQuery 0xbeef "é.org." typeAAAA = .ok msg := by decide +kernel
  have hplain : encodeQuery 0xbeef "é.org" typeAAAA = .ok msg := by decide +kernel
  exact ⟨hdotted, hplain, ((encodeQuery_faithful 0xbeef "é.org" typeAAAA).2 msg hplain).1⟩

end NetProbe.Dns
