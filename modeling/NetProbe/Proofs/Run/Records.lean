import Mathlib.Data.Multiset.AddSub
import NetProbe.Proofs.Run.Step
set_option autoImplicit false

/-! # Saved records

What is left of the observations of a run when nobody looks at the order in which they were saved,
nor at the numbers of their traces: a multiset of records. A history adds its records to those of
the session (`records_after`). -/

namespace NetProbe

/-- A record of any kind. -/
inductive Record where
  | event (e : NetworkEvent)
  | lookup (r : LookupRecord)
  | exchange (r : ExchangeRecord)
  | connect (r : ConnectRecord)
  | tlsHandshake (r : HandshakeRecord)
  | quicHandshake (r : HandshakeRecord)

/-- All records of a group, without the numbers of their traces. -/
def Observations.records (o : Observations) : List Record :=
  o.events.map (fun e => .event { e with trace := 0 }) ++
    o.lookups.map (fun r => .lookup { r with trace := 0 }) ++
    o.requests.map (fun r => .exchange { r with trace := 0 }) ++
    o.connects.map (fun r => .connect { r with trace := 0 }) ++
    o.tlsHandshakes.map (fun r => .tlsHandshake { r with trace := 0 }) ++
    o.quicHandshakes.map (fun r => .quicHandshake { r with trace := 0 })

/-- The records that a session has saved, in no order. -/
def Session.records (σ : Session) : Multiset Record :=
  ↑(σ.saved.flatMap Observations.records)

/-- The records that an action saves. -/
def Action.records : Action → List Record
  | ⟨.session (.save o), _⟩ => o.records
  | _ => []

/-- The records that a history saves, in no order. -/
def historyRecords (h : List Action) : Multiset Record :=
  ↑(h.flatMap Action.records)

section Histories

variable {h k : List Action}

@[simp] theorem historyRecords_nil : historyRecords [] = 0 := rfl

@[simp] theorem historyRecords_append :
    historyRecords (h ++ k) = historyRecords h + historyRecords k := by
  rw [historyRecords, List.flatMap_append, ← Multiset.coe_add]
  rfl

theorem historyRecords_of_perm (hk : h.Perm k) : historyRecords h = historyRecords k :=
  Multiset.coe_eq_coe.2 (hk.flatMap_right Action.records)

/-- Histories with the same records, one by one. -/
theorem historyRecords_flatten {hs ks : List (List Action)}
    (hk : List.Forall₂ (fun h k => historyRecords h = historyRecords k) hs ks) :
    historyRecords hs.flatten = historyRecords ks.flatten := by
  induction hk with
  | nil => rfl
  | cons hhead _ ih =>
    rw [List.flatten_cons, List.flatten_cons, historyRecords_append, historyRecords_append, hhead,
      ih]

end Histories

/-- Only saving changes what is saved. -/
theorem Action.records_after (a : Action) (σ : Session) :
    (a.after σ).records = σ.records + (a.records : Multiset Record) := by
  obtain ⟨e, answer⟩ := a
  cases e with
  | session c =>
    cases c with
    | save o =>
      simp only [Action.after, SessionCall.run, Session.save, Session.records, Action.records,
        List.flatMap_append, List.flatMap_singleton, Multiset.coe_add]
    | take id =>
      have hsaved : (σ.take id).2.saved = σ.saved := by
        rw [Session.take]
        split <;> rfl
      simp [Action.after, SessionCall.run, Session.records, Action.records, hsaved]
    | restore id stream =>
      have hsaved : (σ.restore id stream).2.saved = σ.saved := by
        rw [Session.restore]
        split <;> rfl
      simp [Action.after, SessionCall.run, Session.records, Action.records, hsaved]
    | _ => exact (Multiset.add_zero _).symm
  | _ => exact (Multiset.add_zero _).symm

theorem Session.records_after (σ : Session) (h : List Action) :
    (σ.after h).records = σ.records + historyRecords h := by
  induction h generalizing σ with
  | nil => exact (Multiset.add_zero _).symm
  | cons a h ih =>
    have hcons : historyRecords (a :: h) = (a.records : Multiset Record) + historyRecords h := by
      rw [historyRecords, List.flatMap_cons, ← Multiset.coe_add]
      rfl
    rw [Session.after_cons, ih, a.records_after, hcons, Multiset.add_assoc]

end NetProbe
