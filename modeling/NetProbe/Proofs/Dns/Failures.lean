import NetProbe.Net.Fault
import NetProbe.Proofs.Dns.Message
set_option autoImplicit false

/-! # Failures that blame a name

A query for an invalid name fails with a text of its own. No other failure of a lookup reads like
it: not that of an error of the operating system (`not_isInvalidName_system`), of a context that
ends the waiting (`not_isInvalidName_interruption`), or of a response, whatever is in it
(`Dns.nameless_decodeResponse`). Two letters of the text are enough to tell. -/

namespace NetProbe

/-! ## Texts of failures -/

/-- Whether a failure is that of a query for an invalid name. -/
def IsInvalidName (failure : String) : Prop :=
  ∃ name, failure = (Dns.MessageError.invalidName name).message

/-- Two letters tell these failures from all others: those that start the words `invalid` and
    `domain`. -/
theorem IsInvalidName.letters {failure : String} (h : IsInvalidName failure) :
    failure.toList[17]? = some 'i' ∧ failure.toList[25]? = some 'd' := by
  obtain ⟨name, rfl⟩ := h
  have hmessage : (Dns.MessageError.invalidName name).message =
      "unknown_failure: invalid domain name: " ++ name := rfl
  rw [hmessage, String.toList_append]
  exact ⟨rfl, rfl⟩

theorem not_isInvalidName_of_first {failure : String} (h : failure.toList[17]? ≠ some 'i') :
    ¬ IsInvalidName failure :=
  fun hinvalid => h hinvalid.letters.1

theorem toList_unknown (message : String) : (FailureName.unknown message).toList =
    "unknown_failure: ".toList ++ message.toList :=
  String.toList_append

theorem not_isInvalidName_endpoint (text : String) :
    ¬ IsInvalidName (FailureName.unknown ("invalid endpoint " ++ text)) := by
  intro h
  have hletter := h.letters.2
  rw [toList_unknown, String.toList_append] at hletter
  exact absurd (Option.some.inj hletter) (by decide)

theorem not_isInvalidName_interruption (i : Interruption) : ¬ IsInvalidName i.failure := by
  cases i with
  | deadlineExceeded => exact not_isInvalidName_of_first (by decide)
  | cancelled => exact not_isInvalidName_of_first (by decide)

/-- Whether texts start, and none of them with this letter. -/
inductive StartOtherwise (letter : Char) : List String → Prop
  | nil : StartOtherwise letter []
  | cons {c : Char} {cs : List Char} {texts : List String} :
      c ≠ letter → StartOtherwise letter texts →
      StartOtherwise letter (String.ofList (c :: cs) :: texts)

theorem StartOtherwise.of_mem {letter : Char} {texts : List String}
    (h : StartOtherwise letter texts) {text : String} (htext : text ∈ texts) :
    ∃ c cs, text.toList = c :: cs ∧ c ≠ letter := by
  induction h with
  | nil => cases htext
  | @cons c cs texts hc _ ih =>
    rcases List.mem_cons.1 htext with rfl | htext
    · exact ⟨c, cs, String.toList_ofList, hc⟩
    · exact ih htext

theorem startOtherwise_words : StartOtherwise 'i' SystemError.words := by
  rw [SystemError.words]
  repeat (refine .cons ?_ ?_; decide)
  exact .nil

/-- The words of the operating system do not start with the letter of `invalid`. -/
theorem words_getD (number : Nat) :
    ∃ c cs, (SystemError.words.getD number ("Unknown error " ++ toString number)).toList = c :: cs ∧
      c ≠ 'i' := by
  rw [List.getD_eq_getElem?_getD]
  cases hfound : SystemError.words[number]? with
  | none => exact ⟨'U', _, by rw [Option.getD_none, String.toList_append]; rfl, by decide⟩
  | some w => exact startOtherwise_words.of_mem (List.mem_of_getElem? hfound)

theorem not_isInvalidName_kind {kind : IoKind} {failure : String}
    (h : kind.failure? = some failure) : ¬ IsInvalidName failure := by
  cases kind with
  | connectionRefused | connectionReset | connectionAborted | timedOut | hostUnreachable
  | networkUnreachable | unexpectedEof | interrupted =>
    obtain rfl := Option.some.inj h
    exact not_isInvalidName_of_first (by decide)
  | _ => cases h

theorem not_isInvalidName_system (number : Nat) :
    ¬ IsInvalidName (IoError.system number).failure := by
  have hfailure : (IoError.system number).failure = (IoKind.ofSystem number).failure?.getD
      (FailureName.unknown (SystemError.message number)) := rfl
  rw [hfailure]
  cases hkind : (IoKind.ofSystem number).failure? with
  | some failure => exact not_isInvalidName_kind hkind
  | none =>
    obtain ⟨c, cs, hwords, hc⟩ := words_getD number
    refine not_isInvalidName_of_first ?_
    rw [Option.getD_none, toList_unknown, SystemError.message]
    simp only [String.toList_append, hwords]
    intro hletter
    exact hc (Option.some.inj hletter)

/-! ## Responses -/

namespace Dns

/-- Whether an error, if there is one, is not about the name of a query. -/
def Nameless {α : Type} (x : Except MessageError α) : Prop :=
  ∀ e, x = .error e → ¬ IsInvalidName e.message

section

variable {α β : Type}

theorem Nameless.bind {x : Except MessageError α} {f : α → Except MessageError β}
    (hx : Nameless x) (hf : ∀ a, Nameless (f a)) : Nameless (x >>= f) := by
  intro e he
  cases x with
  | error e' =>
    obtain rfl := Except.error.inj he
    exact hx e' rfl
  | ok a => exact hf a e he

theorem nameless_ok (a : α) : Nameless (.ok a) := nofun

theorem nameless_error {e : MessageError} (h : ¬ IsInvalidName e.message) :
    Nameless (.error e : Except MessageError α) := by
  intro e' he
  obtain rfl := Except.error.inj he
  exact h

theorem nameless_shortMessage : Nameless (.error .shortMessage : Except MessageError α) :=
  nameless_error (not_isInvalidName_of_first (by decide))

end

theorem nameless_take (n : Nat) (bytes : Bytes) : Nameless (take n bytes) := by
  unfold take
  split
  · exact nameless_ok _
  · exact nameless_shortMessage

theorem nameless_takeNumber (n : Nat) (bytes : Bytes) : Nameless (takeNumber n bytes) := by
  rw [takeNumber_eq]
  exact (nameless_take n bytes).bind fun _ => nameless_ok _

theorem nameless_skipName (n : Nat) (bytes : Bytes) : Nameless (skipName n bytes) := by
  induction n generalizing bytes with
  | zero => exact nameless_error (not_isInvalidName_of_first (by decide))
  | succ n ih =>
    cases bytes with
    | nil => exact nameless_shortMessage
    | cons b bytes =>
      rw [skipName_cons]
      split
      · exact nameless_ok bytes
      split
      · exact (nameless_take 1 bytes).bind fun _ => nameless_ok _
      split
      · exact (nameless_take b.toNat bytes).bind fun r => ih r.2
      · exact nameless_error (not_isInvalidName_of_first (by decide))

theorem nameless_skipQuestions (n : Nat) (bytes : Bytes) : Nameless (skipQuestions n bytes) := by
  induction n generalizing bytes with
  | zero => exact nameless_ok bytes
  | succ n ih =>
    refine (nameless_skipName maxLabels bytes).bind fun rest => ?_
    exact (nameless_take 4 rest).bind fun r => ih r.2

theorem nameless_readRecords (wanted : RecordType) (n : Nat) (bytes : Bytes) :
    Nameless (readRecords wanted n bytes) := by
  induction n generalizing bytes with
  | zero => exact nameless_ok []
  | succ n ih =>
    unfold readRecords
    -- Field by field, as a record is read.
    refine (nameless_skipName maxLabels bytes).bind fun rest => ?_
    refine (nameless_takeNumber 2 rest).bind fun type => ?_
    refine (nameless_takeNumber 2 type.2).bind fun class' => ?_
    refine (nameless_takeNumber 4 class'.2).bind fun ttl => ?_
    refine (nameless_takeNumber 2 ttl.2).bind fun length => ?_
    refine (nameless_take length.1 length.2).bind fun data => (ih data.2).bind fun records => ?_
    cases recordAddress wanted (UInt16.ofNat type.1) data.1 with
    | none => exact nameless_ok _
    | some address => exact nameless_ok _

theorem nameless_checkFlags (flags : Nat) : Nameless (checkFlags flags) := by
  have hcode (code : Nat) : ¬ IsInvalidName (MessageError.responseCode code).message := by
    have hmessage : (MessageError.responseCode code).message =
        "unknown_failure: dns rcode " ++ toString code := rfl
    refine not_isInvalidName_of_first ?_
    rw [hmessage, String.toList_append]
    intro hletter
    exact absurd (Option.some.inj hletter) (by decide)
  unfold checkFlags
  split
  · exact nameless_error (not_isInvalidName_of_first (by decide))
  split
  · exact nameless_error (not_isInvalidName_of_first (by decide))
  split
  · exact nameless_ok ()
  · exact nameless_error (not_isInvalidName_of_first (by decide))
  · exact nameless_error (not_isInvalidName_of_first (by decide))
  · exact nameless_error (not_isInvalidName_of_first (by decide))
  · exact nameless_error (hcode _)

theorem nameless_decodeResponse (msg : Bytes) (wanted : RecordType) :
    Nameless (decodeResponse msg wanted) := by
  unfold decodeResponse
  refine (nameless_takeNumber 2 msg).bind fun id => ?_
  refine (nameless_takeNumber 2 id.2).bind fun flags => ?_
  refine (nameless_takeNumber 2 flags.2).bind fun questions => ?_
  refine (nameless_takeNumber 2 questions.2).bind fun answers => ?_
  refine (nameless_takeNumber 2 answers.2).bind fun authorities => ?_
  refine (nameless_takeNumber 2 authorities.2).bind fun additional => ?_
  refine (nameless_checkFlags flags.1).bind fun _ => ?_
  refine (nameless_skipQuestions questions.1 additional.2).bind fun rest => ?_
  refine (nameless_readRecords wanted answers.1 rest).bind fun records => ?_
  dsimp only
  split
  · exact nameless_error (not_isInvalidName_of_first (by decide))
  · exact nameless_ok records

end Dns

end NetProbe
