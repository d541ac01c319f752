import NetProbe.Proofs.Dns.Message
import NetProbe.Proofs.Net.Bytes
import NetProbe.Proofs.Results
set_option autoImplicit false

/-! # Responses as resolvers write them

A response is a header, questions, answers, and whatever may follow. Reading what was written gives
the addresses in the answers of the wanted type, one for each of them and in their order
(`decodeResponse_bytes`). -/

namespace NetProbe.Dns

/-! ## Names -/

/-- How a name ends: with the root, or with a pointer at an earlier place. -/
inductive NameEnd where
  | root
  | pointer (place : BitVec 14)
deriving DecidableEq, Repr

namespace NameEnd

/-- A pointer has its two highest bits set. -/
def bytes : NameEnd → Bytes
  | root => [0]
  | pointer place => word (0xc000 + place.toNat)

end NameEnd

/-- A name as it may stand in a message. -/
structure WireName where
  labels : List Bytes
  ending : NameEnd
  few : labels.length < maxLabels
  fit : ∀ l ∈ labels, 1 ≤ l.length ∧ l.length ≤ Domain.maxLabelLength

namespace WireName

/-- A label after its length. -/
def labelBytes (label : Bytes) : Bytes := UInt8.ofNat label.length :: label

def bytes (name : WireName) : Bytes := name.labels.flatMap labelBytes ++ name.ending.bytes

end WireName

theorem skipName_labels {labels : List Bytes}
    (hfit : ∀ l ∈ labels, 1 ≤ l.length ∧ l.length ≤ Domain.maxLabelLength) (n : Nat)
    (rest : Bytes) :
    skipName (labels.length + n) (labels.flatMap WireName.labelBytes ++ rest) =
      skipName n rest := by
  induction labels with
  | nil => rw [List.length_nil, Nat.zero_add, List.flatMap_nil, List.nil_append]
  | cons label labels ih =>
    obtain ⟨⟨hone, hmost⟩, hlabels⟩ := List.forall_mem_cons.1 hfit
    have hmost : label.length ≤ 63 := hmost
    have hlength : (UInt8.ofNat label.length).toNat = label.length :=
      UInt8.toNat_ofNat_of_lt' (by omega : label.length < 256)
    have hsucc : (label :: labels).length + n = labels.length + n + 1 := by
      rw [List.length_cons]
      omega
    rw [hsucc, List.flatMap_cons, List.append_assoc, WireName.labelBytes, List.cons_append,
      skipName_cons, hlength, if_neg (by omega), if_neg (by omega), if_pos (by omega),
      take_append rfl]
    exact ih hlabels

theorem skipName_ending (ending : NameEnd) (n : Nat) (rest : Bytes) :
    skipName (n + 1) (ending.bytes ++ rest) = .ok rest := by
  cases ending with
  | root => rfl
  | pointer place =>
    have hplace := place.isLt
    have hword : word (0xc000 + place.toNat) = [UInt8.ofNat ((0xc000 + place.toNat) / 256),
        UInt8.ofNat (0xc000 + place.toNat)] := by
      rw [word, bytesOfNumber, bytesOfNumber, bytesOfNumber]
      simp
    -- The two highest bits are set in the first byte, which tells it from the length of a label.
    have hhigh : (UInt8.ofNat ((0xc000 + place.toNat) / 256)).toNat =
        (0xc000 + place.toNat) / 256 :=
      UInt8.toNat_ofNat_of_lt' (by omega : (0xc000 + place.toNat) / 256 < 256)
    rw [NameEnd.bytes, hword, List.cons_append, skipName_cons, hhigh, if_neg (by omega),
      if_pos (by omega), take_append (n := 1) rfl]
    rfl

theorem skipName_bytes (name : WireName) (rest : Bytes) :
    skipName maxLabels (name.bytes ++ rest) = .ok rest := by
  obtain ⟨n, hn⟩ : ∃ n, maxLabels = name.labels.length + (n + 1) :=
    ⟨maxLabels - name.labels.length - 1, by have := name.few; omega⟩
  rw [hn, WireName.bytes, List.append_assoc, skipName_labels name.fit, skipName_ending]

/-! ## Numbers -/

theorem takeNumber_bytesOfNumber {count n : Nat} (h : n < 256 ^ count) (rest : Bytes) :
    takeNumber count (bytesOfNumber count n ++ rest) = .ok (n, rest) := by
  rw [takeNumber_eq, take_append (length_bytesOfNumber count n)]
  change Except.ok (numberOfBytes (bytesOfNumber count n), rest) = _
  rw [numberOfBytes_bytesOfNumber, Nat.mod_eq_of_lt h]

theorem takeNumber_word {n : Nat} (h : n < 65536) (rest : Bytes) :
    takeNumber 2 (word n ++ rest) = .ok (n, rest) :=
  takeNumber_bytesOfNumber h rest

theorem takeNumber_long {n : Nat} (h : n < 4294967296) (rest : Bytes) :
    takeNumber 4 (bytesOfNumber 4 n ++ rest) = .ok (n, rest) :=
  takeNumber_bytesOfNumber h rest

/-! ## Questions and records -/

/-- A question as it may stand in a message. -/
structure WireQuestion where
  name : WireName
  type : RecordType
  class' : UInt16

def WireQuestion.bytes (q : WireQuestion) : Bytes :=
  q.name.bytes ++ word q.type.toNat ++ word q.class'.toNat

/-- A record as it may stand in a message. -/
structure WireRecord where
  owner : WireName
  type : RecordType
  class' : UInt16
  ttl : UInt32
  data : Bytes
  short : data.length < 65536

namespace WireRecord

def bytes (r : WireRecord) : Bytes :=
  r.owner.bytes ++ word r.type.toNat ++ word r.class'.toNat ++ bytesOfNumber 4 r.ttl.toNat ++
    word r.data.length ++ r.data

/-- Whether the record holds an address of the wanted type. -/
def HasAddress (wanted : RecordType) (r : WireRecord) : Prop :=
  (wanted = typeA ∧ r.type = typeA ∧ r.data.length = 4) ∨
    (wanted = typeAAAA ∧ r.type = typeAAAA ∧ r.data.length = 16)

instance (wanted : RecordType) (r : WireRecord) : Decidable (r.HasAddress wanted) :=
  inferInstanceAs (Decidable (_ ∨ _))

/-- The address of which the record holds the bytes, in the family of its type, with the seconds
    for which it may be kept. -/
def Gives (r : WireRecord) (a : AddressRecord) : Prop :=
  a.ttl = r.ttl ∧
    ((r.type = typeA ∧ ∃ ip : Ipv4, a.address = .v4 ip ∧ ip.toBytes = r.data) ∨
      (r.type = typeAAAA ∧ ∃ ip : Ipv6, a.address = .v6 ip ∧ ip.toBytes = r.data))

end WireRecord

theorem skipQuestions_bytes (questions : List WireQuestion) (rest : Bytes) :
    skipQuestions questions.length (questions.flatMap WireQuestion.bytes ++ rest) = .ok rest := by
  induction questions with
  | nil => rfl
  | cons q questions ih =>
    have htail : (word q.type.toNat ++ word q.class'.toNat).length = 4 := rfl
    rw [List.length_cons, skipQuestions, List.flatMap_cons, WireQuestion.bytes]
    simp only [List.append_assoc]
    rw [skipName_bytes, ok_bind, ← List.append_assoc (word _) (word _), take_append htail, ok_bind]
    exact ih

theorem readRecords_cons (wanted : RecordType) (n : Nat) (r : WireRecord) (rest : Bytes) :
    readRecords wanted (n + 1) (r.bytes ++ rest) = (do
      let more ← readRecords wanted n rest
      match recordAddress wanted r.type r.data with
      | some address => return ⟨address, r.ttl⟩ :: more
      | none => return more) := by
  rw [readRecords, WireRecord.bytes]
  have htype := UInt16.ofNat_toNat (x := r.type)
  have httl := UInt32.ofNat_toNat (x := r.ttl)
  simp only [List.append_assoc, skipName_bytes, takeNumber_word r.type.toNat_lt,
    takeNumber_word r.class'.toNat_lt, takeNumber_long r.ttl.toNat_lt,
    takeNumber_word r.short, take_append rfl, ok_bind]
  rewrite [htype, httl]
  rfl

/-- Whether a record gives an address is told by its type and the length of its data. -/
theorem recordAddress_cases (wanted : RecordType) (r : WireRecord) :
    (¬ r.HasAddress wanted ∧ recordAddress wanted r.type r.data = none) ∨
    (r.HasAddress wanted ∧ ∃ ip, recordAddress wanted r.type r.data = some ip ∧
      r.Gives ⟨ip, r.ttl⟩) := by
  rw [recordAddress]
  by_cases h4 : r.type = typeA ∧ wanted = typeA ∧ r.data.length = 4
  · rw [if_pos h4]
    obtain ⟨htype, hwanted, hlength⟩ := h4
    exact .inr ⟨.inl ⟨hwanted, htype, hlength⟩, _, rfl, rfl,
      .inl ⟨htype, _, rfl, Ipv4.toBytes_ofBytes hlength⟩⟩
  rw [if_neg h4]
  by_cases h16 : r.type = typeAAAA ∧ wanted = typeAAAA ∧ r.data.length = 16
  · rw [if_pos h16]
    obtain ⟨htype, hwanted, hlength⟩ := h16
    exact .inr ⟨.inr ⟨hwanted, htype, hlength⟩, _, rfl, rfl,
      .inr ⟨htype, _, rfl, Ipv6.toBytes_ofBytes hlength⟩⟩
  · rw [if_neg h16]
    refine .inl ⟨?_, rfl⟩
    rintro (⟨hwanted, htype, hlength⟩ | ⟨hwanted, htype, hlength⟩)
    · exact h4 ⟨htype, hwanted, hlength⟩
    · exact h16 ⟨htype, hwanted, hlength⟩

theorem readRecords_bytes (wanted : RecordType) (answers : List WireRecord) (rest : Bytes) :
    ∃ records, readRecords wanted answers.length (answers.flatMap WireRecord.bytes ++ rest) =
        .ok records ∧
      List.Forall₂ WireRecord.Gives (answers.filter (WireRecord.HasAddress wanted)) records := by
  induction answers with
  | nil => exact ⟨[], rfl, .nil⟩
  | cons r answers ih =>
    obtain ⟨records, hread, hgives⟩ := ih
    rw [List.length_cons, List.flatMap_cons, List.append_assoc, readRecords_cons, hread]
    rcases recordAddress_cases wanted r with ⟨hno, hnone⟩ | ⟨hyes, ip, hip, hgive⟩
    · refine ⟨records, by rw [hnone]; rfl, ?_⟩
      rwa [List.filter_cons_of_neg (by simpa using hno)]
    · refine ⟨⟨ip, r.ttl⟩ :: records, by rw [hip]; rfl, ?_⟩
      rw [List.filter_cons_of_pos (by simpa using hyes)]
      exact .cons hgive hgives

/-! ## Responses -/

/-- A response as a resolver may write it. The records of the other two sections, or whatever else
    there is behind the answers, are just bytes. -/
structure WireResponse where
  id : UInt16
  flags : UInt16
  questions : List WireQuestion
  answers : List WireRecord
  authorities : UInt16
  additionals : UInt16
  trailing : Bytes
  fewQuestions : questions.length < 65536
  fewAnswers : answers.length < 65536

namespace WireResponse

def bytes (r : WireResponse) : Bytes :=
  word r.id.toNat ++ word r.flags.toNat ++ word r.questions.length ++ word r.answers.length ++
    word r.authorities.toNat ++ word r.additionals.toNat ++
    r.questions.flatMap WireQuestion.bytes ++ r.answers.flatMap WireRecord.bytes ++ r.trailing

end WireResponse

/-- Whether flags are those of a complete and successful response: the highest bit says that it is
    one, the tenth that it is not cut, and the lowest four that nothing went wrong. -/
def IsSuccess (flags : UInt16) : Prop :=
  flags.toNat.testBit 15 = true ∧ flags.toNat.testBit 9 = false ∧ flags.toNat % 16 = 0

theorem checkFlags_of_isSuccess {flags : UInt16} (h : IsSuccess flags) :
    checkFlags flags.toNat = .ok () := by
  obtain ⟨hresponse, hwhole, hcode⟩ := h
  rw [Nat.testBit_eq_decide_div_mod_eq, decide_eq_true_eq] at hresponse
  rw [Nat.testBit_eq_decide_div_mod_eq, decide_eq_false_iff_not] at hwhole
  have hresponse : flags.toNat / 0x8000 % 2 = 1 := hresponse
  have hwhole : ¬ flags.toNat / 0x0200 % 2 = 1 := hwhole
  rw [checkFlags, if_neg (by omega), if_neg hwhole, hcode]
  rfl

/-- Reading a successful response gives, in their order, one address for each of its answers that
    holds one of the wanted type: the address with the bytes and the seconds of the answer. What
    names they have, of which class they are and what follows them does not matter. Without such an
    answer there is no answer at all. -/
theorem decodeResponse_bytes (r : WireResponse) (wanted : RecordType) (h : IsSuccess r.flags) :
    ∃ records, List.Forall₂ WireRecord.Gives (r.answers.filter (WireRecord.HasAddress wanted))
        records ∧
      decodeResponse r.bytes wanted = if records = [] then .error .noAnswer else .ok records := by
  obtain ⟨records, hread, hgives⟩ := readRecords_bytes wanted r.answers r.trailing
  refine ⟨records, hgives, ?_⟩
  rw [decodeResponse, WireResponse.bytes]
  simp only [List.append_assoc, takeNumber_word r.id.toNat_lt, takeNumber_word r.flags.toNat_lt,
    takeNumber_word r.fewQuestions, takeNumber_word r.fewAnswers,
    takeNumber_word r.authorities.toNat_lt, takeNumber_word r.additionals.toNat_lt,
    checkFlags_of_isSuccess h, skipQuestions_bytes, hread, ok_bind]
  cases records <;> rfl

/-- A name of as many labels as there may be, with a pointer behind them. -/
def WireName.longest : WireName where
  labels := List.replicate 127 [97]
  ending := .pointer 12
  few := by
    rw [List.length_replicate]
    decide
  fit := by
    intro label hlabel
    rw [List.eq_of_mem_replicate hlabel]
    decide

/-- A response with an alias, an address that is one byte too short, and an address. -/
def WireResponse.aliased : WireResponse where
  id := 7
  flags := 0x8180
  questions := [⟨.longest, typeA, 1⟩]
  answers := [⟨.longest, typeCNAME, 1, 60, [0xc0, 12], by decide⟩,
    ⟨.longest, typeA, 1, 60, [127, 0, 0], by decide⟩,
    ⟨.longest, typeA, 3, 300, [127, 0, 0, 1], by decide⟩]
  authorities := 1
  additionals := 0
  trailing := [1, 2, 3]
  fewQuestions := by decide
  fewAnswers := by decide

theorem decodeResponse_bytes_aliased :
    IsSuccess WireResponse.aliased.flags ∧
    (∃ a : AddressRecord, decodeResponse WireResponse.aliased.bytes typeA = .ok [a] ∧
      a.ttl = 300 ∧ ∃ ip : Ipv4, a.address = .v4 ip ∧ ip.toBytes = [127, 0, 0, 1]) ∧
    decodeResponse WireResponse.aliased.bytes typeAAAA = .error .noAnswer := by
  have hsuccess : IsSuccess WireResponse.aliased.flags := by
    unfold IsSuccess
    decide
  obtain ⟨records, hgives, hread⟩ := decodeResponse_bytes .aliased typeA hsuccess
  obtain ⟨none', hnone, hread'⟩ := decodeResponse_bytes .aliased typeAAAA hsuccess
  cases hnone
  cases hgives with
  | @cons _ a _ _ hgive hmore =>
    cases hmore
    obtain ⟨httl, ⟨-, ip, haddress, hbytes⟩ | ⟨htype, -⟩⟩ := hgive
    · exact ⟨hsuccess, ⟨a, hread, httl, ip, haddress, hbytes⟩, hread'⟩
    · cases htype

end NetProbe.Dns
