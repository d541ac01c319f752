import Mathlib.Data.List.Basic
import NetProbe.Run.Session
set_option autoImplicit false

/-! # A session in many hands

Any number of callers share a session. Each of them hands out a trace, saves or extracts
observations or registers something to close in one step; a call of `close` takes what is registered
in one step and closes it piece by piece in later ones. Slots are made and used all the while.
`Steps` says what can happen when they all take turns, in any order.

Two kinds of facts follow by induction on what happened. What is put into a store stays there in
order until all of it is taken out at once (`Drains.flatten`), and what is numbered is numbered
without gaps (`Counts.range`). -/

namespace NetProbe

/-! ## Closing one thing

It changes neither the counts nor the stores of a session, and is noted. Of the slots only the one
that is meant is closed. -/

namespace Session

/-- Whether what is to be closed is there. -/
def Has (s : Session) : Closer → Prop
  | .slot id => id < s.slots.length
  | .named _ => True

variable (s : Session) (c : Closer)

@[simp] theorem closeOne_traces : (s.closeOne c).traces = s.traces := by cases c <;> rfl

@[simp] theorem closeOne_saved : (s.closeOne c).saved = s.saved := by cases c <;> rfl

@[simp] theorem closeOne_closers : (s.closeOne c).closers = s.closers := by cases c <;> rfl

@[simp] theorem closeOne_closings : (s.closeOne c).closings = s.closings ++ [c] := by
  cases c <;> rfl

theorem length_closeOne : (s.closeOne c).slots.length = s.slots.length := by
  cases c with
  | slot id => exact List.length_set
  | named name => rfl

theorem closed_closeOne {c : Closer} (hc : s.Has c) (id : SlotId) :
    (s.closeOne c).slot? id = some .closed ↔ s.slot? id = some .closed ∨ c = .slot id := by
  cases c with
  | named name => simp [closeOne, slot?]
  | slot i =>
    have hlt : i < s.slots.length := hc
    show (s.slots.set i .closed)[id]? = _ ↔ s.slots[id]? = _ ∨ _
    by_cases hid : i = id
    · subst hid
      simp [hlt]
    · simp [List.getElem?_set_ne hid, hid]

end Session

/-! ## Using slots

Slots are made, and streams are taken out of them and put into them. This changes nothing but the
slots; those that are closed stay so, and no other ones are closed. -/

inductive SlotUse where
  | make (stream : Stream)
  | take (id : SlotId)
  | restore (id : SlotId) (stream : Stream)

namespace Session

def use (s : Session) : SlotUse → Session
  | .make stream => (s.newSlot stream).2
  | .take id => (s.take id).2
  | .restore id stream => (s.restore id stream).2

variable (s : Session) (u : SlotUse)

theorem exists_use_eq : ∃ slots : List (Slot Stream), s.use u = { s with slots } ∧
    s.slots.length ≤ slots.length ∧
    ∀ id : SlotId, slots[id]? = some .closed ↔ s.slots[id]? = some .closed := by
  cases u with
  | make stream =>
    refine ⟨_, rfl, by simp, fun id => ?_⟩
    rw [List.getElem?_append]
    split
    · rfl
    · next hid =>
      rw [List.getElem?_eq_none (Nat.le_of_not_lt hid)]
      cases id - s.slots.length <;> simp
  | take id =>
    obtain ⟨slots, htake, hlength, hclosed⟩ := s.exists_take_eq id
    exact ⟨slots, htake, Nat.le_of_eq hlength.symm, hclosed⟩
  | restore id stream =>
    obtain ⟨slots, hrestore, hlength, hclosed⟩ := s.exists_restore_eq id stream
    exact ⟨slots, hrestore, Nat.le_of_eq hlength.symm, hclosed⟩

@[simp] theorem use_traces : (s.use u).traces = s.traces := by
  obtain ⟨slots, huse, -⟩ := s.exists_use_eq u
  rw [huse]

@[simp] theorem use_saved : (s.use u).saved = s.saved := by
  obtain ⟨slots, huse, -⟩ := s.exists_use_eq u
  rw [huse]

@[simp] theorem use_closers : (s.use u).closers = s.closers := by
  obtain ⟨slots, huse, -⟩ := s.exists_use_eq u
  rw [huse]

@[simp] theorem use_closings : (s.use u).closings = s.closings := by
  obtain ⟨slots, huse, -⟩ := s.exists_use_eq u
  rw [huse]

theorem length_le_use : s.slots.length ≤ (s.use u).slots.length := by
  obtain ⟨slots, huse, hlength, -⟩ := s.exists_use_eq u
  rwa [huse]

theorem closed_use (id : SlotId) :
    (s.use u).slot? id = some .closed ↔ s.slot? id = some .closed := by
  obtain ⟨slots, huse, -, hclosed⟩ := s.exists_use_eq u
  rw [huse]
  exact hclosed id

end Session

/-! ## Steps -/

/-- Something that was registered to be closed, and how many registrations came before it. -/
abbrev Registration := Closer × Nat

/-- A call of `close`: what it took, how many of these it has closed, and whether it has
    returned. -/
structure CloseCall where
  taken : List Registration
  closed : Nat := 0
  returned : Bool := false

/-- What a call has to close yet. -/
def CloseCall.left (c : CloseCall) : List Registration := c.taken.drop c.closed

/-- A call after it has closed one thing more. -/
def CloseCall.next (c : CloseCall) : CloseCall := { c with closed := c.closed + 1 }

/-- A session and the calls of `close` that were made on it. -/
structure Shared where
  session : Session := {}
  /-- How many registrations the calls took. -/
  taken : Nat := 0
  calls : List CloseCall := []

namespace Shared

/-- The registrations that no call took yet. -/
def waiting (s : Shared) : List Registration := s.session.closers.zipIdx s.taken

/-- What happens in one step. Calls of `close` are numbered in the order in which they begin. -/
inductive Event where
  | used (u : SlotUse)
  | traced (trace : TraceId)
  | saved (o : Observations)
  | extracted (groups : List Observations)
  | tracked (r : Registration)
  | began (call : Nat) (taken : List Registration)
  | closed (call : Nat) (r : Registration)
  | returned (call : Nat)

/-- What can happen in one step of any caller, and what becomes of the session. -/
inductive Step (s : Shared) : Event → Shared → Prop
  | use (u : SlotUse) : Step s (.used u) { s with session := s.session.use u }
  | newTrace : Step s (.traced s.session.newTrace.1) { s with session := s.session.newTrace.2 }
  | save (o : Observations) : Step s (.saved o) { s with session := s.session.save o }
  | extract : Step s (.extracted s.session.extract.1) { s with session := s.session.extract.2 }
  /-- Only what is there is registered. -/
  | track (c : Closer) (there : s.session.Has c) :
    Step s (.tracked (c, s.taken + s.session.tracked)) { s with session := s.session.track c }
  /-- A call of `close` begins and takes what is registered. -/
  | begin :
    Step s (.began s.calls.length (s.session.takeClosers.1.zipIdx s.taken)) {
      session := s.session.takeClosers.2
      taken := s.taken + s.session.takeClosers.1.length
      calls := s.calls ++ [{ taken := s.session.takeClosers.1.zipIdx s.taken }] }
  /-- A call closes the next thing that it took. -/
  | close {call : Nat} {c : CloseCall} {r : Registration} (running : s.calls[call]? = some c)
      (next : c.taken[c.closed]? = some r) :
    Step s (.closed call r) { s with
      session := s.session.closeOne r.1
      calls := s.calls.set call c.next }
  /-- A call that has closed everything that it took returns. -/
  | finish {call : Nat} {c : CloseCall} (running : s.calls[call]? = some c)
      (done : c.closed = c.taken.length) (unreturned : c.returned = false) :
    Step s (.returned call) { s with calls := s.calls.set call { c with returned := true } }

/-- What can happen one after the other. -/
inductive Steps : Shared → List Event → Shared → Prop
  | nil (s : Shared) : Steps s [] s
  | cons {s t u : Shared} {e : Event} {h : List Event} (step : Step s e t) (rest : Steps t h u) :
    Steps s (e :: h) u

variable {s t u : Shared} {e : Event} {h k : List Event}

theorem steps_append : Steps s (h ++ k) u ↔ ∃ t, Steps s h t ∧ Steps t k u := by
  induction h generalizing s with
  | nil =>
    constructor
    · intro hk
      exact ⟨s, .nil s, hk⟩
    · rintro ⟨t, ⟨⟩, hk⟩
      exact hk
  | cons e h ih =>
    constructor
    · rintro (_ | ⟨hstep, hrest⟩)
      obtain ⟨t, hh, hk⟩ := ih.1 hrest
      exact ⟨t, .cons hstep hh, hk⟩
    · rintro ⟨t, _ | ⟨hstep, hh⟩, hk⟩
      exact .cons hstep (ih.2 ⟨t, hh, hk⟩)

/-- What holds of every step from one state to the next holds from the first state to the last. -/
theorem Steps.holds {P : Shared → Prop} (hsteps : Steps s h t) (hs : P s)
    (hstep : ∀ {s e t}, Step s e t → P s → P t) : P t := by
  induction hsteps with
  | nil => exact hs
  | cons step _ ih => exact ih (hstep step hs)

/-! ## The calls of `close` -/

theorem CloseCall.left_eq_cons {c : CloseCall} {r : Registration}
    (hr : c.taken[c.closed]? = some r) : c.left = r :: c.next.left := by
  obtain ⟨hlt, rfl⟩ := List.getElem?_eq_some_iff.1 hr
  exact List.drop_eq_getElem_cons hlt

theorem CloseCall.left_eq_nil {c : CloseCall} (h : c.closed = c.taken.length) : c.left = [] := by
  rw [CloseCall.left, h, List.drop_length]

theorem close_left {call n : Nat} {c : CloseCall} (hcall : s.calls[call]? = some c)
    (hc : c.returned = false) (hn : c.taken.length = c.closed + n) :
    ∃ t, Steps s (c.left.map (.closed call) ++ [.returned call]) t ∧
      t.session = (c.left.map Prod.fst).foldl Session.closeOne s.session := by
  induction n generalizing s c with
  | zero =>
    rw [CloseCall.left_eq_nil hn.symm]
    exact ⟨_, .cons (.finish hcall hn.symm hc) (.nil _), rfl⟩
  | succ n ih =>
    obtain ⟨hlt, -⟩ := List.getElem?_eq_some_iff.1 hcall
    have hr : c.taken[c.closed]? = some c.taken[c.closed] := List.getElem?_eq_getElem (by omega)
    have hn' : c.next.taken.length = c.next.closed + n := by
      change c.taken.length = c.closed + 1 + n
      omega
    obtain ⟨t, hrest, hsession⟩ := ih (s := { s with
      session := s.session.closeOne c.taken[c.closed].1, calls := s.calls.set call c.next })
      (List.getElem?_set_self hlt) hc hn'
    rw [CloseCall.left_eq_cons hr]
    exact ⟨t, .cons (.close hcall hr) hrest, hsession⟩

/-- A call of `close` does what is done in one go, when nobody else has a turn. -/
theorem close_alone (s : Shared) : ∃ t,
    Steps s (.began s.calls.length s.waiting ::
      (s.waiting.map (.closed s.calls.length) ++ [.returned s.calls.length])) t ∧
    t.session = s.session.close := by
  have hcall : (s.calls ++ [{ taken := s.waiting : CloseCall }])[s.calls.length]? =
      some { taken := s.waiting } := List.getElem?_concat_length
  obtain ⟨t, hrest, hsession⟩ := close_left
    (s := {
      session := s.session.takeClosers.2
      taken := s.taken + s.session.takeClosers.1.length
      calls := s.calls ++ [{ taken := s.waiting }] })
    hcall rfl (Nat.zero_add _).symm
  refine ⟨t, .cons .begin hrest, hsession.trans ?_⟩
  change ((s.session.closers.zipIdx s.taken).map Prod.fst).foldl _ _ = _
  rw [List.zipIdx_map_fst]
  rfl

/-! ## Stores -/

/-- Whether a store keeps what some events put in, in order, until another one takes it all. -/
structure Drains {α : Type} (puts : Event → Option α) (takes : Event → Option (List α))
    (store : Shared → List α) : Prop where
  step : ∀ {s t : Shared} {e : Event}, Step s e t →
    (takes e = none ∧ store t = store s ++ (puts e).toList) ∨
    (takes e = some (store s) ∧ puts e = none ∧ store t = [])

namespace Drains

variable {α : Type} {puts : Event → Option α} {takes : Event → Option (List α)}
  {store : Shared → List α}

/-- What was taken, followed by what is in the store, is what was put in. -/
theorem flatten (hd : Drains puts takes store) (hsteps : Steps s h t) :
    store s ++ h.filterMap puts = (h.filterMap takes).flatten ++ store t := by
  induction hsteps with
  | nil => exact List.append_nil _
  | @cons s t u e h step _ ih =>
    rcases hd.step step with ⟨htakes, hstore⟩ | ⟨htakes, hputs, hstore⟩
    · rw [List.filterMap_cons_none htakes, ← ih, hstore, List.append_assoc]
      cases hputs : puts e with
      | none => rw [List.filterMap_cons_none hputs]; rfl
      | some a => rw [List.filterMap_cons_some hputs]; rfl
    · rw [List.filterMap_cons_none hputs, List.filterMap_cons_some htakes, List.flatten_cons,
        List.append_assoc, ← ih, hstore, List.nil_append]

/-- What nobody takes out piles up. -/
theorem piles_up (hd : Drains puts (fun _ => none) store) (hsteps : Steps s h t) :
    store t = store s ++ h.filterMap puts := by
  have hnone : h.filterMap (fun _ => (none : Option (List α))) = [] :=
    List.filterMap_eq_nil_iff.2 fun _ _ => rfl
  rw [hd.flatten hsteps, hnone]
  rfl

/-- A store stays empty as long as nothing is put in. -/
theorem empty_of_no_puts (hd : Drains puts takes store) (hsteps : Steps s h t) (hs : store s = [])
    (hputs : h.filterMap puts = []) : store t = [] := by
  have hflatten := hd.flatten hsteps
  rw [hs, hputs] at hflatten
  exact (List.append_eq_nil_iff.1 hflatten.symm).2

/-- Who takes again, with nothing put in between, takes nothing. -/
theorem again (hd : Drains puts takes store) {before mid after : List Event} {e e' : Event}
    (hsteps : Steps s (before ++ e :: mid ++ e' :: after) u) {xs ys : List α}
    (he : takes e = some xs) (hmid : mid.filterMap puts = []) (he' : takes e' = some ys) :
    ys = [] := by
  obtain ⟨t₂, hbefore, hafter⟩ := steps_append.1 hsteps
  obtain ⟨t₀, -, hmid'⟩ := steps_append.1 hbefore
  obtain _ | ⟨hstep, hmid'⟩ := hmid'
  obtain _ | ⟨hstep', -⟩ := hafter
  have hempty := hd.step hstep
  rw [he] at hempty
  obtain ⟨hnone, -⟩ | ⟨-, -, hempty⟩ := hempty
  · cases hnone
  have hempty' := hd.empty_of_no_puts hmid' hempty hmid
  have htakes := hd.step hstep'
  rw [he', hempty'] at htakes
  obtain ⟨hnone, -⟩ | ⟨htakes, -⟩ := htakes
  · cases hnone
  · exact Option.some.inj htakes

end Drains

/-! ## Numbers -/

/-- Whether some events number something by a count. -/
structure Counts {α : Type} (number : Nat → α) (numbers : Event → Option α)
    (count : Shared → Nat) : Prop where
  step : ∀ {s t : Shared} {e : Event}, Step s e t →
    (numbers e = none ∧ count t = count s) ∨
    (numbers e = some (number (count s)) ∧ count t = count s + 1)

/-- The numbers that were given have no gap and no repetition. -/
theorem Counts.range {α : Type} {number : Nat → α} {numbers : Event → Option α}
    {count : Shared → Nat} (hc : Counts number numbers count) (hsteps : Steps s h t) :
    count s ≤ count t ∧
      h.filterMap numbers = (List.range' (count s) (count t - count s)).map number := by
  induction hsteps with
  | nil s =>
    rw [Nat.sub_self]
    exact ⟨Nat.le_refl _, rfl⟩
  | @cons s t u e h step _ ih =>
    obtain ⟨hle, ih⟩ := ih
    rcases hc.step step with ⟨hnumbers, hcount⟩ | ⟨hnumbers, hcount⟩
    · rw [List.filterMap_cons_none hnumbers, ih, hcount]
      exact ⟨hcount ▸ hle, rfl⟩
    · have hsucc : count u - count s = (count u - count t) + 1 := by omega
      rw [List.filterMap_cons_some hnumbers, ih, hsucc, List.range'_succ, List.map_cons, hcount]
      exact ⟨by omega, rfl⟩

end Shared

end NetProbe
