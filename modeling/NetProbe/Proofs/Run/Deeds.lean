import NetProbe.Measurement.Basic
import NetProbe.Proofs.Run.History
set_option autoImplicit false

/-! # Deeds

What is left of a history for those who count traces, records, slots and streams: its deeds. A deed
has no type of answers, and what it does to a session is a function of the two, `Deed.after`; the
other actions leave a session as it is but for its log (`Action.quiet_or_deed`).

Two kinds of facts follow by induction on the history. What deeds add to a session piles up in their
order (`Session.piles_up`), and a session that numbers something gives consecutive numbers
(`Session.counts`). -/

namespace NetProbe

/-- Something that an action does to a session, or to a stream. -/
inductive Deed where
  | traced (trace : TraceId)
  | saved (o : Observations)
  | established (stream : Stream)
  | held (stream : Stream) (id : SlotId)
  | took (id : SlotId) (stream : Option Stream)
  | restored (id : SlotId) (stream : Stream)
  | tracked (c : Closer)
  /-- A handshake over the stream failed, which is the end of the stream. -/
  | lost (stream : Stream)

/-- The deed in an action, if there is one. -/
def Action.deed? : Action → Option Deed
  | ⟨.session .newTrace, trace⟩ => some (.traced trace)
  | ⟨.session (.save o), _⟩ => some (.saved o)
  | ⟨.session (.establish _), stream⟩ => some (.established stream)
  | ⟨.session (.hold stream), id⟩ => some (.held stream id)
  | ⟨.session (.take id), stream⟩ => some (.took id stream)
  | ⟨.session (.restore id stream), _⟩ => some (.restored id stream)
  | ⟨.session (.track c), _⟩ => some (.tracked c)
  | ⟨.attempt _ (.secure stream _), answer⟩ =>
    (failureOf (unlessInterrupted (unlessBroken (α := Tls.Peer)) answer)).map fun _ => .lost stream
  | _ => none

/-- The deeds in a history. -/
def deeds (h : List Action) : List Deed :=
  h.filterMap Action.deed?

@[simp] theorem deeds_nil : deeds [] = [] := rfl

@[simp] theorem deeds_append (h k : List Action) : deeds (h ++ k) = deeds h ++ deeds k :=
  List.filterMap_append

section Deeds

variable {a : Action} {d : Deed} {h : List Action}

theorem deeds_cons_none (ha : a.deed? = none) : deeds (a :: h) = deeds h :=
  List.filterMap_cons_none ha

theorem deeds_cons_some (ha : a.deed? = some d) : deeds (a :: h) = d :: deeds h :=
  List.filterMap_cons_some ha

end Deeds

namespace Deed

/-- What becomes of a session in a deed. -/
def after (σ : Session) : Deed → Session
  | traced _ => σ.newTrace.2
  | saved o => σ.save o
  | established stream => (σ.newStream stream.transport).2
  | held stream _ => (σ.hold stream).2
  | took id _ => (σ.take id).2
  | restored id stream => (σ.restore id stream).2
  | tracked c => σ.track c
  | lost _ => σ

/-- Whether a session answers like this. -/
def Fits (σ : Session) : Deed → Prop
  | traced trace => trace = σ.newTrace.1
  | established stream => stream.number = σ.streams + 1
  | held stream id => id = (σ.hold stream).1
  | took id stream => stream = (σ.take id).1
  | _ => True

end Deed

/-- An action has a deed in it, or changes the log of a session at most. -/
theorem Action.quiet_or_deed (a : Action) (σ : Session) :
    (a.deed? = none ∧ ∃ log, a.after σ = { σ with log }) ∨
      ∃ d, a.deed? = some d ∧ a.after σ = d.after σ ∧ (a.Fits σ → d.Fits σ) := by
  obtain ⟨e, answer⟩ := a
  cases e with
  | session c =>
    cases c with
    | newTrace => exact .inr ⟨.traced answer, rfl, rfl, Eq.symm⟩
    | log e => exact .inl ⟨rfl, σ.log ++ [e], rfl⟩
    | save o => exact .inr ⟨.saved o, rfl, rfl, fun _ => trivial⟩
    | establish t =>
      refine .inr ⟨.established answer, rfl, rfl, fun h => ?_⟩
      exact h ▸ rfl
    | hold stream => exact .inr ⟨.held stream answer, rfl, rfl, Eq.symm⟩
    | take id => exact .inr ⟨.took id answer, rfl, rfl, Eq.symm⟩
    | restore id stream => exact .inr ⟨.restored id stream, rfl, rfl, fun _ => trivial⟩
    | track c => exact .inr ⟨.tracked c, rfl, rfl, fun _ => trivial⟩
  | attempt c a =>
    cases a with
    | secure stream offer =>
      cases hd : Action.deed? ⟨.attempt c (.secure stream offer), answer⟩ with
      | none => exact .inl ⟨rfl, σ.log, rfl⟩
      | some d =>
        obtain ⟨_, -, rfl⟩ := Option.map_eq_some_iff.1 hd
        exact .inr ⟨_, rfl, rfl, fun _ => trivial⟩
    | _ => exact .inl ⟨rfl, σ.log, rfl⟩
  | _ => exact .inl ⟨rfl, σ.log, rfl⟩

namespace Session

variable {α : Type}

/-- What holds of a session holds after a history if the log and the deeds in the history cannot
    change it. -/
theorem holds_after {P : Session → Prop} (hquiet : ∀ (σ : Session) log, P σ → P { σ with log })
    {σ : Session} {h : List Action} (hdeed : ∀ σ, ∀ d ∈ deeds h, P σ → P (d.after σ)) (hσ : P σ) :
    P (σ.after h) := by
  induction h generalizing σ with
  | nil => exact hσ
  | cons a h ih =>
    rw [after_cons]
    rcases a.quiet_or_deed σ with ⟨hd, log, hafter⟩ | ⟨d, hd, hafter, -⟩
    · rw [deeds_cons_none hd] at hdeed
      exact ih hdeed (hafter ▸ hquiet σ log hσ)
    · rw [deeds_cons_some hd] at hdeed
      exact ih (fun τ e he => hdeed τ e (List.mem_cons_of_mem d he))
        (hafter ▸ hdeed σ d List.mem_cons_self hσ)

/-- What deeds put into a session piles up. -/
theorem piles_up {f : Session → List α} {g : Deed → Option α}
    (hquiet : ∀ (σ : Session) log, f { σ with log } = f σ)
    (hdeed : ∀ σ d, f (d.after σ) = f σ ++ (g d).toList) (σ : Session) (h : List Action) :
    f (σ.after h) = f σ ++ (deeds h).filterMap g := by
  induction h generalizing σ with
  | nil => simp
  | cons a h ih =>
    rw [after_cons, ih]
    rcases a.quiet_or_deed σ with ⟨hd, log, hafter⟩ | ⟨d, hd, hafter, -⟩
    · rw [deeds_cons_none hd, hafter, hquiet]
    · rw [deeds_cons_some hd, hafter, hdeed, List.append_assoc]
      cases hg : g d <;> simp [hg]

/-- How often deeds have counted on. -/
theorem adds_up {f : Session → Nat} {g : Deed → Option α}
    (hquiet : ∀ (σ : Session) log, f { σ with log } = f σ)
    (hdeed : ∀ σ d, f (d.after σ) = f σ + (g d).toList.length) (σ : Session) (h : List Action) :
    f (σ.after h) = f σ + ((deeds h).filterMap g).length := by
  induction h generalizing σ with
  | nil => simp
  | cons a h ih =>
    rw [after_cons, ih]
    rcases a.quiet_or_deed σ with ⟨hd, log, hafter⟩ | ⟨d, hd, hafter, -⟩
    · rw [deeds_cons_none hd, hafter, hquiet]
    · rw [deeds_cons_some hd, hafter, hdeed, Nat.add_assoc]
      cases hg : g d <;> simp [hg, Nat.add_comm]

/-- What a session numbers gets consecutive numbers. -/
theorem counts {f : Session → Nat} {g : Deed → Option α} {number : Nat → α}
    (hquiet : ∀ (σ : Session) log, f { σ with log } = f σ)
    (hdeed : ∀ σ d, f (d.after σ) = f σ + (g d).toList.length)
    (hnumber : ∀ σ d a, d.Fits σ → g d = some a → a = number (f σ)) {σ : Session} {h : List Action}
    (hgives : σ.Gives h) :
    (deeds h).filterMap g = (List.range' (f σ) ((deeds h).filterMap g).length).map number := by
  induction h generalizing σ with
  | nil => rfl
  | cons a h ih =>
    obtain ⟨hfits, hgives⟩ := gives_cons.1 hgives
    have hrest := ih hgives
    rcases a.quiet_or_deed σ with ⟨hd, log, hafter⟩ | ⟨d, hd, hafter, hdfits⟩
    · rw [hafter, hquiet] at hrest
      rwa [deeds_cons_none hd]
    · rw [hafter, hdeed] at hrest
      rw [deeds_cons_some hd]
      cases hg : g d with
      | none =>
        rw [hg] at hrest
        rwa [List.filterMap_cons_none hg]
      | some b =>
        rw [hg] at hrest
        rw [List.filterMap_cons_some hg, List.length_cons, List.range'_succ, List.map_cons,
          hnumber σ d b (hdfits hfits) hg]
        exact congrArg _ hrest

end Session

/-! ## Kinds of deeds -/

namespace Deed

def traced? : Deed → Option TraceId
  | traced trace => some trace
  | _ => none

def saved? : Deed → Option Observations
  | saved o => some o
  | _ => none

/-- The new slot of a stream. -/
def held? : Deed → Option SlotId
  | held _ id => some id
  | _ => none

/-- The slot that a stream is taken out of or put back into. -/
def slot? : Deed → Option SlotId
  | took id _ | restored id _ => some id
  | _ => none

/-- What is to be closed from now on. -/
def closer? : Deed → Option Closer
  | held _ id => some (.slot id)
  | tracked c => some c
  | _ => none

end Deed

/-- The traces that were handed out. -/
def traced (ds : List Deed) : List TraceId := ds.filterMap Deed.traced?

/-- The groups of observations that were saved. -/
def saves (ds : List Deed) : List Observations := ds.filterMap Deed.saved?

/-- The slots that were made. -/
def slotsMade (ds : List Deed) : List SlotId := ds.filterMap Deed.held?

/-- What is to be closed. -/
def closersMade (ds : List Deed) : List Closer := ds.filterMap Deed.closer?

@[simp] theorem traced_append (ds es : List Deed) : traced (ds ++ es) = traced ds ++ traced es :=
  List.filterMap_append

@[simp] theorem saves_append (ds es : List Deed) : saves (ds ++ es) = saves ds ++ saves es :=
  List.filterMap_append

@[simp] theorem closersMade_append (ds es : List Deed) :
    closersMade (ds ++ es) = closersMade ds ++ closersMade es :=
  List.filterMap_append

namespace Session

variable {σ : Session} {h : List Action}

/-- Taking a stream out of a slot or putting one back changes nothing but the slot. -/
theorem after_eq_of_slot (σ : Session) (d : Deed) (hd : d.slot? ≠ none) :
    ∃ slots, slots.length = σ.slots.length ∧ d.after σ = { σ with slots } := by
  cases d with
  | took id stream =>
    obtain ⟨slots, htake, hlength, -⟩ := σ.exists_take_eq id
    exact ⟨slots, hlength, htake⟩
  | restored id stream =>
    obtain ⟨slots, hrestore, hlength, -⟩ := σ.exists_restore_eq id stream
    exact ⟨slots, hlength, hrestore⟩
  | _ => exact absurd rfl hd

theorem saved_after (σ : Session) (h : List Action) :
    (σ.after h).saved = σ.saved ++ saves (deeds h) := by
  refine piles_up (f := saved) (fun _ _ => rfl) (fun σ d => ?_) σ h
  have hslot := σ.after_eq_of_slot d
  cases d with
  | took id _ | restored id _ =>
    obtain ⟨slots, -, hafter⟩ := hslot nofun
    simp [Deed.saved?, hafter]
  | saved o => rfl
  | _ => exact (List.append_nil _).symm

theorem tracked_after (σ : Session) (h : List Action) :
    (σ.after h).tracked = σ.tracked + (closersMade (deeds h)).length := by
  refine adds_up (f := tracked) (fun _ _ => rfl) (fun σ d => ?_) σ h
  have hslot := σ.after_eq_of_slot d
  cases d with
  | took id _ | restored id _ =>
    obtain ⟨slots, -, hafter⟩ := hslot nofun
    simp [Deed.closer?, hafter, tracked]
  | held stream id => simp [Deed.after, Deed.closer?, tracked, hold, newSlot, track]
  | tracked c => simp [Deed.after, Deed.closer?, tracked, track]
  | _ => rfl

theorem traces_step (σ : Session) (d : Deed) :
    (d.after σ).traces = σ.traces + d.traced?.toList.length := by
  have hslot := σ.after_eq_of_slot d
  cases d with
  | took id _ | restored id _ =>
    obtain ⟨slots, -, hafter⟩ := hslot nofun
    simp [Deed.traced?, hafter]
  | _ => rfl

theorem slots_step (σ : Session) (d : Deed) :
    (d.after σ).slots.length = σ.slots.length + d.held?.toList.length := by
  have hslot := σ.after_eq_of_slot d
  cases d with
  | took id _ | restored id _ =>
    obtain ⟨slots, hlength, hafter⟩ := hslot nofun
    simp [Deed.held?, hafter, hlength]
  | held stream id => simp [Deed.after, Deed.held?, hold, newSlot, track]
  | _ => rfl

theorem traces_after (σ : Session) (h : List Action) :
    (σ.after h).traces = σ.traces + (traced (deeds h)).length :=
  adds_up (fun _ _ => rfl) traces_step σ h

theorem slots_after (σ : Session) (h : List Action) :
    (σ.after h).slots.length = σ.slots.length + (slotsMade (deeds h)).length :=
  adds_up (f := fun σ => σ.slots.length) (fun _ _ => rfl) slots_step σ h

/-- Traces are numbered one after the other. -/
theorem traced_eq (hgives : σ.Gives h) :
    traced (deeds h) = (List.range' (σ.traces + 1) (traced (deeds h)).length).map Int.ofNat := by
  rw [Nat.add_comm, ← List.map_add_range', List.map_map]
  refine counts (fun _ _ => rfl) traces_step (fun σ d t hfits ht => ?_) hgives
  cases d with
  | traced t =>
    obtain rfl := Option.some.inj ht
    rw [show t = Int.ofNat (σ.traces + 1) from hfits, Nat.add_comm]
    rfl
  | _ => cases ht

/-- Every slot that is made is to be closed, in the order in which they are made, if nothing else
    is. -/
theorem closers_after (hh : ∀ c, .tracked c ∉ deeds h)
    (hσ : σ.closers = (List.range σ.slots.length).map .slot) :
    (σ.after h).closers = (List.range (σ.after h).slots.length).map .slot := by
  refine holds_after (P := fun σ => σ.closers = (List.range σ.slots.length).map .slot)
    (fun _ _ hσ => hσ) (fun σ d hd hσ => ?_) hσ
  have hslot := σ.after_eq_of_slot d
  cases d with
  | took id _ | restored id _ =>
    obtain ⟨slots, hlength, hafter⟩ := hslot nofun
    simp [hafter, hlength, hσ]
  | held stream id => simp [Deed.after, hold, newSlot, track, hσ, List.range_succ]
  | tracked c => exact absurd hd (hh c)
  | _ => exact hσ

end Session

end NetProbe
