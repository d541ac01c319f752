import NetProbe.Operation
import NetProbe.Proofs.Run.Deeds
set_option autoImplicit false

/-! # What scripts do

A script has no branches, so its runs are told by recursion on its tree: `Script.Does` says to which
result it may come with which deeds. One equation for each effect and one for scripts in sequence
take the scripts of measurements apart. -/

namespace NetProbe

/-! ## Attempts

Of all attempts, only a handshake over a stream can be the end of the stream. -/

@[simp] theorem Action.deed?_attempt {c : Context} {a : Attempt}
    {answer : Except Interruption a.Answer} (ha : ∀ stream offer, a ≠ .secure stream offer) :
    deed? ⟨.attempt c a, answer⟩ = none := by
  cases a with
  | secure stream offer => exact absurd rfl (ha stream offer)
  | _ => rfl

@[simp] theorem Action.deed?_secure {c : Context} {stream : Stream} {offer : Tls.Offer}
    {answer : Except Interruption (Attempt.secure stream offer).Answer} :
    deed? ⟨.attempt c (.secure stream offer), answer⟩
      = (failureOf (unlessInterrupted (unlessBroken (α := Tls.Peer)) answer)).map
        fun _ => .lost stream := rfl

namespace Script

variable {α β : Type}

/-- The script may come to this result with these deeds. -/
def Does : Script α → α → List Deed → Prop
  | done a, b, ds => b = a ∧ ds = []
  | perform e next, b, ds =>
    ∃ answer ks, (next answer).Does b ks ∧ ds = (Action.deed? ⟨e, answer⟩).toList ++ ks

@[simp] theorem does_pure {a b : α} {ds : List Deed} :
    (pure a : Script α).Does b ds ↔ b = a ∧ ds = [] := Iff.rfl

@[simp] theorem does_bind {x : Script α} {f : α → Script β} {b : β} {ds : List Deed} :
    (x >>= f).Does b ds ↔ ∃ a ds₁, x.Does a ds₁ ∧ ∃ ds₂, (f a).Does b ds₂ ∧ ds = ds₁ ++ ds₂ := by
  induction x generalizing ds with
  | done a =>
    constructor
    · exact fun h => ⟨a, [], ⟨rfl, rfl⟩, ds, h, rfl⟩
    · rintro ⟨_, _, ⟨rfl, rfl⟩, ds₂, h, rfl⟩
      exact h
  | perform e next ih =>
    constructor
    · rintro ⟨answer, ks, h, rfl⟩
      obtain ⟨a, ds₁, ha, ds₂, hf, rfl⟩ := (ih answer).1 h
      exact ⟨a, _, ⟨answer, ds₁, ha, rfl⟩, ds₂, hf, (List.append_assoc _ _ _).symm⟩
    · rintro ⟨a, _, ⟨answer, ks, ha, rfl⟩, ds₂, hf, rfl⟩
      exact ⟨answer, ks ++ ds₂, (ih answer).2 ⟨a, ks, ha, ds₂, hf, rfl⟩, List.append_assoc _ _ _⟩

@[simp] theorem does_map {x : Script α} {f : α → β} {b : β} {ds : List Deed} :
    (f <$> x).Does b ds ↔ ∃ a, x.Does a ds ∧ b = f a := by
  have hmap : f <$> x = x >>= fun a => pure (f a) := rfl
  rw [hmap, does_bind]
  constructor
  · rintro ⟨a, ds₁, ha, ds₂, ⟨rfl, rfl⟩, rfl⟩
    exact ⟨a, by rwa [List.append_nil], rfl⟩
  · rintro ⟨a, ha, rfl⟩
    exact ⟨a, ds, ha, [], ⟨rfl, rfl⟩, (List.append_nil ds).symm⟩

/-! ## Effects -/

theorem does_perform {e : Effect} {answer : e.Answer} {ds : List Deed} :
    (perform e done).Does answer ds ↔ ds = (Action.deed? ⟨e, answer⟩).toList := by
  constructor
  · rintro ⟨_, _, ⟨rfl, rfl⟩, rfl⟩
    exact List.append_nil _
  · rintro rfl
    exact ⟨answer, [], ⟨rfl, rfl⟩, (List.append_nil _).symm⟩

section Effects

variable {ds : List Deed}

@[simp] theorem does_newTrace {trace : TraceId} :
    newTrace.Does trace ds ↔ ds = [.traced trace] := does_perform

@[simp] theorem does_log {e : LogEntry} {u : Unit} : (log e).Does u ds ↔ ds = [] := does_perform

@[simp] theorem does_save {o : Observations} {u : Unit} : (save o).Does u ds ↔ ds = [.saved o] :=
  does_perform

@[simp] theorem does_establish {t : Transport} {stream : Stream} :
    (establish t).Does stream ds ↔ ds = [.established stream] := does_perform

@[simp] theorem does_hold {stream : Stream} {id : SlotId} :
    (hold stream).Does id ds ↔ ds = [.held stream id] := does_perform

@[simp] theorem does_take {id : SlotId} {stream : Option Stream} :
    (take id).Does stream ds ↔ ds = [.took id stream] := does_perform

@[simp] theorem does_restore {id : SlotId} {stream : Stream} {answer : Bool} :
    (restore id stream).Does answer ds ↔ ds = [.restored id stream] := does_perform

@[simp] theorem does_now {time : Time} : now.Does time ds ↔ ds = [] := does_perform

@[simp] theorem does_randomWord {word : UInt16} : randomWord.Does word ds ↔ ds = [] := does_perform

@[simp] theorem does_limit {c d : Context} {seconds : UInt64} :
    (limit c seconds).Does d ds ↔ (∃ time, d = c.limit time (milliseconds seconds)) ∧ ds = [] := by
  simp [limit]

@[simp] theorem does_attempt {c : Context} {a : Attempt} {answer : Except Interruption a.Answer} :
    (attempt c a).Does answer ds ↔ ds = (Action.deed? ⟨.attempt c a, answer⟩).toList := does_perform

@[simp] theorem does_attemptBoth {c : Context} {a b : Attempt}
    {answer : Except Interruption a.Answer × Except Interruption b.Answer} :
    (attemptBoth c a b).Does answer ds ↔ ds = [] := does_perform

end Effects

/-! ## Histories of scripts -/

theorem does_of_traces {x : Script Value} {v : Value} {h : List Action}
    (hx : Activity.Traces x.activity v h) : x.Does v (deeds h) := by
  induction x generalizing h with
  | done w =>
    obtain ⟨rfl, rfl⟩ := Activity.Traces.of_done hx
    exact ⟨rfl, rfl⟩
  | perform e next ih =>
    cases hx with
    | @perform _ _ answer _ k hnext =>
      refine ⟨answer, deeds k, ih answer hnext, ?_⟩
      rw [deeds, List.filterMap_cons]
      cases Action.deed? ⟨e, answer⟩ <;> rfl

/-- What a script comes to whose outcome is that of a named operation. -/
theorem exists_outcome {name : String} {wrap : β → Value} {x : Script (Outcome β)} {v : Value}
    {h : List Action} (hx : Activity.Traces (outcomeActivity name wrap x) v h) :
    ∃ o, x.Does o (deeds h) ∧ v = o.value name wrap := by
  have hdoes : (x >>= fun o => pure (o.value name wrap)).Does v (deeds h) := does_of_traces hx
  rw [does_bind] at hdoes
  obtain ⟨o, ds₁, ho, ds₂, ⟨rfl, rfl⟩, hds⟩ := hdoes
  rw [List.append_nil] at hds
  exact ⟨o, hds ▸ ho, rfl⟩

end Script

end NetProbe
