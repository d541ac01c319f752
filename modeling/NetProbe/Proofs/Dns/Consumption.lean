import Mathlib.Data.Nat.Find
import NetProbe.Proofs.Dns.Positions
set_option autoImplicit false

/-! # What a decoding depends on

The decoding of a message depends on the bytes that it reads and on nothing behind them. A reading
that did not run short of bytes stays the same with more bytes at the end (`Grows`), so a decoding
that did not run short is settled by a prefix of the message (`decodeResponse_settled`). -/

namespace NetProbe.Dns

/-- Whether `y`, read from the same bytes as `x` with more behind them, gives the same as `x`, which
    did not run short of bytes; `add` puts those bytes behind the ones that are left. -/
def Grows {α : Type} (add : α → α) (x y : Except MessageError α) : Prop :=
  x ≠ .error .shortMessage → y = x.map add

namespace Grows

variable {α β : Type} {add : α → α} {add' : β → β} {x y : Except MessageError α}

theorem bind {f g : α → Except MessageError β} (h : Grows add x y)
    (hf : ∀ a, Grows add' (f a) (g (add a))) : Grows add' (x >>= f) (y >>= g) := by
  intro hshort
  cases x with
  | error e =>
    have hy : y = .error e := h fun he => hshort (by cases he; rfl)
    rw [hy]
    rfl
  | ok a =>
    have hy : y = .ok (add a) := h nofun
    rw [hy]
    exact hf a hshort

theorem refl (x : Except MessageError α) : Grows id x x := by
  intro _
  cases x <;> rfl

theorem ok (a : α) : Grows add (.ok a) (.ok (add a)) := fun _ => rfl

theorem error (e : MessageError) : Grows add (.error e) (.error e) := fun _ => rfl

end Grows

/-- What is left to read, with more bytes behind it. -/
def addRest (more : Bytes) {α : Type} (r : α × Bytes) : α × Bytes := (r.1, r.2 ++ more)

section

variable (more : Bytes)

theorem grows_take (n : Nat) (bytes : Bytes) :
    Grows (addRest more) (take n bytes) (take n (bytes ++ more)) := by
  intro hshort
  rw [take] at hshort ⊢
  split at hshort
  · next hn =>
    have hn' : n ≤ (bytes ++ more).length := by
      rw [List.length_append]
      omega
    rw [take, if_pos hn, if_pos hn', List.take_append_of_le_length hn,
      List.drop_append_of_le_length hn]
    rfl
  · exact absurd rfl hshort

theorem grows_takeNumber (n : Nat) (bytes : Bytes) :
    Grows (addRest more) (takeNumber n bytes) (takeNumber n (bytes ++ more)) := by
  rw [takeNumber_eq, takeNumber_eq]
  exact (grows_take more n bytes).bind fun _ => .ok _

theorem grows_skipName (n : Nat) (bytes : Bytes) :
    Grows (· ++ more) (skipName n bytes) (skipName n (bytes ++ more)) := by
  induction n generalizing bytes with
  | zero =>
    rw [skipName_zero, skipName_zero]
    exact .error _
  | succ n ih =>
    cases bytes with
    | nil => exact fun hshort => absurd (skipName_nil n) hshort
    | cons b bytes =>
      rw [List.cons_append, skipName_cons, skipName_cons]
      split
      · exact .ok bytes
      split
      · exact (grows_take more 1 bytes).bind fun _ => .ok _
      split
      · exact (grows_take more b.toNat bytes).bind fun r => ih r.2
      · exact .error _

theorem grows_skipQuestions (n : Nat) (bytes : Bytes) :
    Grows (· ++ more) (skipQuestions n bytes) (skipQuestions n (bytes ++ more)) := by
  induction n generalizing bytes with
  | zero => exact .ok bytes
  | succ n ih =>
    refine (grows_skipName more maxLabels bytes).bind fun rest => ?_
    exact (grows_take more 4 rest).bind fun r => ih r.2

theorem grows_readRecords (wanted : RecordType) (n : Nat) (bytes : Bytes) :
    Grows id (readRecords wanted n bytes) (readRecords wanted n (bytes ++ more)) := by
  induction n generalizing bytes with
  | zero => exact .refl _
  | succ n ih =>
    rw [readRecords, readRecords]
    -- Field by field, as a record is read.
    refine (grows_skipName more maxLabels bytes).bind fun rest => ?_
    refine (grows_takeNumber more 2 rest).bind fun type => ?_
    refine (grows_takeNumber more 2 type.2).bind fun class' => ?_
    refine (grows_takeNumber more 4 class'.2).bind fun ttl => ?_
    refine (grows_takeNumber more 2 ttl.2).bind fun length => ?_
    refine (grows_take more length.1 length.2).bind fun data => ?_
    exact (ih data.2).bind fun records => .refl _

/-- More bytes at the end change nothing, unless the message was too short. -/
theorem grows_decodeResponse (msg : Bytes) (wanted : RecordType) :
    Grows id (decodeResponse msg wanted) (decodeResponse (msg ++ more) wanted) := by
  refine (grows_takeNumber more 2 msg).bind fun id' => ?_
  refine (grows_takeNumber more 2 id'.2).bind fun flags => ?_
  refine (grows_takeNumber more 2 flags.2).bind fun questions => ?_
  refine (grows_takeNumber more 2 questions.2).bind fun answers => ?_
  refine (grows_takeNumber more 2 answers.2).bind fun authorities => ?_
  refine (grows_takeNumber more 2 authorities.2).bind fun additionals => ?_
  refine (Grows.refl (checkFlags flags.1)).bind fun _ => ?_
  refine (grows_skipQuestions more questions.1 additionals.2).bind fun rest => ?_
  exact (grows_readRecords more wanted answers.1 rest).bind fun records => .refl _

end

theorem decodeResponse_append {msg : Bytes} {wanted : RecordType}
    (h : decodeResponse msg wanted ≠ .error .shortMessage) (more : Bytes) :
    decodeResponse (msg ++ more) wanted = decodeResponse msg wanted := by
  rw [grows_decodeResponse more msg wanted h]
  cases decodeResponse msg wanted <;> rfl

/-- The decoding that is settled by a prefix is settled by every longer one. -/
theorem decodeResponse_of_append {p q : Bytes} {wanted : RecordType} (hpq : p <+: q)
    (h : decodeResponse p wanted ≠ .error .shortMessage) :
    decodeResponse q wanted = decodeResponse p wanted := by
  obtain ⟨more, rfl⟩ := hpq
  exact decodeResponse_append h more

/-- A message that is not too short has a shortest prefix that is not: the bytes that were read. -/
theorem exists_length_read {msg : Bytes} {wanted : RecordType}
    (h : decodeResponse msg wanted ≠ .error .shortMessage) :
    ∃ n ≤ msg.length, ∀ p, p <+: msg →
      (p.length < n → decodeResponse p wanted = .error .shortMessage) ∧
      (n ≤ p.length → decodeResponse p wanted = decodeResponse msg wanted) := by
  classical
  have hsome : ∃ n, decodeResponse (msg.take n) wanted ≠ .error .shortMessage :=
    ⟨msg.length, by rwa [List.take_length]⟩
  -- Every prefix of the message is one of these, by its length.
  refine ⟨Nat.find hsome, Nat.find_min' hsome (by rwa [List.take_length]), fun p hp => ?_⟩
  rw [List.prefix_iff_eq_take.1 hp]
  have hlength : (msg.take p.length).length = p.length := List.length_take_of_le hp.length_le
  rw [hlength]
  constructor
  · intro hlt
    exact not_not.1 (Nat.find_min hsome hlt)
  · intro hle
    have hleast := Nat.find_spec hsome
    rw [decodeResponse_of_append (List.take_prefix_take_left hle) hleast,
      decodeResponse_of_append (List.take_prefix _ msg) hleast]

/-- The decoding of a message depends on the bytes that it reads: more bytes behind the message
    change nothing, and it has a prefix from which on every longer one gives the same, while every
    shorter one is too short. Whatever the message, nothing outside it is looked at. -/
theorem decodeResponse_settled (msg : Bytes) (wanted : RecordType) :
    (decodeResponse msg wanted ≠ .error .shortMessage →
      (∀ more, decodeResponse (msg ++ more) wanted = decodeResponse msg wanted) ∧
      ∃ n ≤ msg.length, ∀ p, p <+: msg →
        (p.length < n → decodeResponse p wanted = .error .shortMessage) ∧
        (n ≤ p.length → decodeResponse p wanted = decodeResponse msg wanted)) ∧
    ByPosition.decode msg wanted = (decodeResponse msg wanted).mapError .error := by
  refine ⟨fun h => ⟨decodeResponse_append h, exists_length_read h⟩, ByPosition.decode_eq msg wanted⟩

/-- A response with an address, behind which two bytes follow that are not read. -/
theorem decodeResponse_settled_loopback :
    let msg : Bytes := word 7 ++ word 0x8180 ++ word 1 ++ word 1 ++ word 0 ++ word 0 ++
      [1, 97, 0, 0, 1, 0, 1] ++ [0xc0, 12, 0, 1, 0, 1, 0, 0, 1, 44, 0, 4, 127, 0, 0, 1] ++ [8, 9]
    let found : Except MessageError (List AddressRecord) :=
      .ok [⟨.v4 (Ipv4.ofBytes [127, 0, 0, 1]), 300⟩]
    decodeResponse msg typeA ≠ .error .shortMessage ∧
    (∀ more, decodeResponse (msg ++ more) typeA = found) ∧
    (∃ n ≤ msg.length, ∀ p, p <+: msg →
      (p.length < n → decodeResponse p typeA = .error .shortMessage) ∧
      (n ≤ p.length → decodeResponse p typeA = found)) ∧
    ByPosition.decode msg typeA = found.mapError .error := by
  intro msg found
  have hfound : decodeResponse msg typeA = found := by decide
  have hlong : decodeResponse msg typeA ≠ .error .shortMessage := by decide
  obtain ⟨hsettled, hpositions⟩ := decodeResponse_settled msg typeA
  rw [hfound] at hsettled hpositions
  exact ⟨hlong, (hsettled (by decide)).1, (hsettled (by decide)).2, hpositions⟩

end NetProbe.Dns
