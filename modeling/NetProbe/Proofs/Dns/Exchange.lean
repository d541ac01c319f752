import NetProbe.Dns.Exchange
import NetProbe.Proofs.Dns.Query
set_option autoImplicit false

/-! # Datagrams that answer no query

Anyone can send a datagram to a waiting socket. One that does not carry the identifier of the query
has no part in what the query gives, though it was received into the same buffer before the reply:
of the buffer only that is read which the last datagram was written over (`Buffer.front_receive`).
So a query gives what the first datagram with its identifier says, whatever came before it or comes
after it (`readReply_ignores_strays`). -/

namespace NetProbe.Dns

/-! ## One datagram -/

/-- What is read of a buffer is the datagram, whatever was received before. -/
theorem Buffer.front_receive (b : Buffer) (datagram : Bytes) :
    (b.receive datagram).1.front (b.receive datagram).2 = datagram.take maxDatagram := by
  simp only [Buffer.receive, Buffer.front]
  exact List.take_left

/-- Whether a datagram has a complete header with the identifier of a query. -/
def Answers (id : UInt16) (datagram : Bytes) : Prop :=
  headerLength ≤ datagram.length ∧ datagram.take 2 = word id.toNat

instance (id : UInt16) (datagram : Bytes) : Decidable (Answers id datagram) :=
  inferInstanceAs (Decidable (_ ∧ _))

theorem messageId_eq_some_iff {id : UInt16} {datagram : Bytes} :
    messageId datagram = some id ↔ Answers id datagram := by
  unfold messageId Answers
  by_cases hlong : headerLength ≤ datagram.length
  · have hlength : (datagram.take 2).length = 2 :=
      List.length_take_of_le (le_trans (by decide) hlong)
    have hlt : numberOfBytes (datagram.take 2) < 2 ^ 16 := by
      have hlt := numberOfBytes_lt (datagram.take 2)
      rwa [hlength] at hlt
    simp only [hlong, if_true, true_and, Option.some.injEq]
    -- Two bytes and the number that they spell tell each other.
    constructor
    · intro hid
      have hback := bytesOfNumber_numberOfBytes (datagram.take 2)
      rw [hlength] at hback
      rw [← hid, UInt16.toNat_ofNat_of_lt' hlt, word, hback]
    · intro hid
      have hsmall : id.toNat < 256 ^ 2 := id.toNat_lt
      rw [hid, word, numberOfBytes_bytesOfNumber, Nat.mod_eq_of_lt hsmall, UInt16.ofNat_toNat]
  · simp [hlong]

/-- The bytes that are lost of a long datagram are not those of its header. -/
theorem answers_take_iff {id : UInt16} {datagram : Bytes} :
    Answers id (datagram.take maxDatagram) ↔ Answers id datagram := by
  have htake : (datagram.take maxDatagram).take 2 = datagram.take 2 := by
    rw [List.take_take]
    rfl
  have hlength : headerLength ≤ (datagram.take maxDatagram).length ↔
      headerLength ≤ datagram.length := by
    have hheader : headerLength ≤ maxDatagram := by decide
    rw [List.length_take]
    omega
  unfold Answers
  rw [htake, hlength]

/-! ## All datagrams -/

/-- The induction is on the datagrams, with the buffer generalized: what a stray one leaves there
    is never read. -/
theorem firstReply_eq (id : UInt16) (b : Buffer) (datagrams : List Bytes) :
    firstReply (some id) b datagrams =
      (datagrams.find? (Answers id ·)).map (·.take maxDatagram) := by
  induction datagrams generalizing b with
  | nil => rfl
  | cons datagram rest ih =>
    simp only [firstReply, Buffer.front_receive, messageId_eq_some_iff, answers_take_iff]
    by_cases hanswers : Answers id datagram
    · rw [if_pos hanswers, List.find?_cons_of_pos (by simpa using hanswers)]
      rfl
    · rw [if_neg hanswers, List.find?_cons_of_neg (by simpa using hanswers), ih]

section

variable {id : UInt16} {domain : String} {type : RecordType} {query : Bytes}

theorem messageId_of_encodeQuery (h : encodeQuery id domain type = .ok query) :
    messageId query = some id := by
  obtain ⟨-, rfl⟩ := encodeQuery_eq_ok_iff.1 h
  simp only [List.append_assoc, messageId_queryHeader]

theorem readReply_eq (h : encodeQuery id domain type = .ok query) (wanted : RecordType)
    (inbox : Inbox) :
    readReply query wanted inbox =
      match inbox.datagrams.find? (Answers id ·) with
      | none => .error inbox.fault.failure
      | some reply => (decodeResponse (reply.take maxDatagram) wanted).mapError (·.message) := by
  unfold readReply
  rw [messageId_of_encodeQuery h, firstReply_eq]
  cases inbox.datagrams.find? (Answers id ·) with
  | none => rfl
  | some reply =>
    simp only [Option.map_some]
    cases decodeResponse (reply.take maxDatagram) wanted <;> rfl

theorem find?_of_strays {before after : List Bytes} {reply : Bytes}
    (hbefore : ∀ d ∈ before, ¬ Answers id d) (hreply : Answers id reply) :
    (before ++ reply :: after).find? (Answers id ·) = some reply := by
  have hnone : before.find? (Answers id ·) = none :=
    List.find?_eq_none.2 fun d hd => by simpa using hbefore d hd
  rw [List.find?_append, hnone, List.find?_cons_of_pos (by simpa using hreply)]
  rfl

/-- A query gives what the first datagram with its identifier says, and if there is none the fault
    that ended the receiving. So it gives the same with other strays before that datagram and
    anything after it. -/
theorem readReply_ignores_strays (h : encodeQuery id domain type = .ok query)
    (wanted : RecordType) :
    (∀ before reply after fault, (∀ d ∈ before, ¬ Answers id d) → Answers id reply →
      readReply query wanted ⟨before ++ reply :: after, fault⟩ =
        (decodeResponse (reply.take maxDatagram) wanted).mapError (·.message)) ∧
    (∀ before before' reply after after' fault fault', (∀ d ∈ before, ¬ Answers id d) →
      (∀ d ∈ before', ¬ Answers id d) → Answers id reply →
      readReply query wanted ⟨before ++ reply :: after, fault⟩ =
        readReply query wanted ⟨before' ++ reply :: after', fault'⟩) ∧
    ∀ strays fault, (∀ d ∈ strays, ¬ Answers id d) →
      readReply query wanted ⟨strays, fault⟩ = .error fault.failure := by
  have hfirst : ∀ before reply after fault, (∀ d ∈ before, ¬ Answers id d) → Answers id reply →
      readReply query wanted ⟨before ++ reply :: after, fault⟩ =
        (decodeResponse (reply.take maxDatagram) wanted).mapError (·.message) := by
    intro before reply after fault hbefore hreply
    rw [readReply_eq h, find?_of_strays hbefore hreply]
  refine ⟨hfirst, ?_, ?_⟩
  · intro before before' reply after after' fault fault' hbefore hbefore' hreply
    rw [hfirst _ _ _ _ hbefore hreply, hfirst _ _ _ _ hbefore' hreply]
  · intro strays fault hstrays
    have hnone : strays.find? (Answers id ·) = none :=
      List.find?_eq_none.2 fun d hd => by simpa using hstrays d hd
    rw [readReply_eq h, hnone]

end

/-- A long datagram for another query and one that breaks off behind the identifier come before the
    reply, and a forged one after it. -/
theorem readReply_between_strays :
    let query : Bytes := [0xbe, 0xef, 1, 0, 0, 1, 0, 0, 0, 0, 0, 0,
      3, 0x6f, 0x72, 0x67, 0, 0, 1, 0, 1]
    let other : Bytes := [0xbe, 0xee] ++ List.replicate 40 0xff
    let short : Bytes := [0xbe, 0xef]
    let reply : Bytes := [0xbe, 0xef, 0x80, 0, 0, 0, 0, 1, 0, 0, 0, 0,
      0, 0, 1, 0, 1, 0, 0, 0, 60, 0, 4, 192, 0, 2, 1]
    let forged : Bytes := [0xbe, 0xef, 0x80, 0, 0, 0, 0, 1, 0, 0, 0, 0,
      0, 0, 1, 0, 1, 0, 0, 0, 60, 0, 4, 192, 0, 2, 66]
    encodeQuery 0xbeef "org" typeA = .ok query ∧
    readReply query typeA ⟨[other, short, reply, forged], .system 111⟩ =
      .ok [⟨.v4 (Ipv4.ofBytes [192, 0, 2, 1]), 60⟩] ∧
    readReply query typeA ⟨[reply], .system 104⟩ =
      readReply query typeA ⟨[other, short, reply, forged], .system 111⟩ ∧
    readReply query typeA ⟨[other, short], .system 111⟩ = .error (IoError.system 111).failure := by
  intro query other short reply forged
  have hquery : encodeQuery 0xbeef "org" typeA = .ok query := by decide +kernel
  have hstrays : ∀ d ∈ [other, short], ¬ Answers 0xbeef d := by decide
  have hnone : ∀ d ∈ ([] : List Bytes), ¬ Answers 0xbeef d := nofun
  have hreply : Answers 0xbeef reply := by decide
  have hdecode : (decodeResponse (reply.take maxDatagram) typeA).mapError (·.message) =
      .ok [⟨.v4 (Ipv4.ofBytes [192, 0, 2, 1]), 60⟩] := by decide +kernel
  obtain ⟨hfirst, hsame, hfault⟩ := readReply_ignores_strays hquery typeA
  refine ⟨hquery, ?_, ?_, hfault [other, short] _ hstrays⟩
  · rw [← hdecode]
    exact hfirst [other, short] reply [forged] _ hstrays hreply
  · exact hsame [] [other, short] reply [] [forged] _ _ hnone hstrays hreply

end NetProbe.Dns
