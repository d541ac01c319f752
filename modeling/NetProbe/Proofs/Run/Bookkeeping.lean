import Mathlib.Data.Multiset.OrderedMonoid
import NetProbe.Proofs.Run.Sharing
set_option autoImplicit false

/-! # Nothing is lost or repeated

What the callers of a shared session get from it, however they take turns: traces with consecutive
numbers, every saved group once and in order, and everything closed once that was registered
(`Kept`).

A registration waits in the session, is in the hands of a call of `close`, or was closed. Steps move
it from one place to the next (`Step.pending`), so it is in one of them (`Steps.pending`). What is
closed is there as long as its registration is pending (`Ready`), so it is its slot that is closed,
and no other one (`Steps.closed_slot`). -/

namespace NetProbe

/-! ## Groups as one -/

namespace Observations

theorem append_assoc (a b c : Observations) : a ++ b ++ c = a ++ (b ++ c) := by
  change append (append a b) c = append a (append b c)
  simp only [append, List.append_assoc]

theorem append_empty (a : Observations) : a ++ ({} : Observations) = a := by
  change append a {} = a
  simp only [append, List.append_nil]

theorem empty_append (a : Observations) : ({} : Observations) ++ a = a := by
  change append {} a = a
  simp only [append, List.nil_append]

theorem foldl_append (a : Observations) (groups : List Observations) :
    groups.foldl append a = a ++ reduce groups := by
  induction groups generalizing a with
  | nil => exact (append_empty a).symm
  | cons o groups ih =>
    rw [reduce, List.foldl_cons, List.foldl_cons, ih, ih]
    change a ++ o ++ _ = a ++ (({} : Observations) ++ o ++ _)
    rw [empty_append, append_assoc]

theorem reduce_cons (o : Observations) (groups : List Observations) :
    reduce (o :: groups) = o ++ reduce groups := by
  rw [reduce, List.foldl_cons, foldl_append]
  change ({} : Observations) ++ o ++ _ = _
  rw [empty_append]

theorem reduce_append (groups groups' : List Observations) :
    reduce (groups ++ groups') = reduce groups ++ reduce groups' := by
  rw [reduce, List.foldl_append, foldl_append]
  rfl

/-- Reducing groups batch by batch, and then the results, gives the same records. -/
theorem reduce_flatten (batches : List (List Observations)) :
    reduce batches.flatten = reduce (batches.map reduce) := by
  induction batches with
  | nil => rfl
  | cons groups batches ih =>
    rw [List.flatten_cons, reduce_append, List.map_cons, reduce_cons, ih]

end Observations

namespace Shared

variable {s t u : Shared} {e : Event} {h k : List Event}

/-! ## What happened -/

/-- The trace that was handed out. -/
def Event.trace? : Event → Option TraceId
  | traced trace => some trace
  | _ => none

def Event.saved? : Event → Option Observations
  | saved o => some o
  | _ => none

def Event.extracted? : Event → Option (List Observations)
  | extracted groups => some groups
  | _ => none

def Event.tracked? : Event → Option Registration
  | tracked r => some r
  | _ => none

/-- What a call of `close` took. -/
def Event.taken? : Event → Option (List Registration)
  | began _ taken => some taken
  | _ => none

def Event.closed? : Event → Option Registration
  | closed _ r => some r
  | _ => none

def traces (h : List Event) : List TraceId := h.filterMap Event.trace?
def saves (h : List Event) : List Observations := h.filterMap Event.saved?
def extractions (h : List Event) : List (List Observations) := h.filterMap Event.extracted?
def registrations (h : List Event) : List Registration := h.filterMap Event.tracked?
def closings (h : List Event) : List Registration := h.filterMap Event.closed?

/-! ## Traces and groups -/

theorem counts_traces :
    Counts (fun n => Int.ofNat (n + 1)) Event.trace? fun s => s.session.traces where
  step hstep := by
    cases hstep with
    | newTrace => exact .inr ⟨rfl, rfl⟩
    | use => exact .inl ⟨rfl, Session.use_traces _ _⟩
    | close => exact .inl ⟨rfl, Session.closeOne_traces _ _⟩
    | _ => exact .inl ⟨rfl, rfl⟩

theorem drains_saved : Drains Event.saved? Event.extracted? fun s => s.session.saved where
  step hstep := by
    cases hstep with
    | save o => exact .inl ⟨rfl, rfl⟩
    | extract => exact .inr ⟨rfl, rfl, rfl⟩
    | use => exact .inl ⟨rfl, (Session.use_saved _ _).trans (List.append_nil _).symm⟩
    | close => exact .inl ⟨rfl, (Session.closeOne_saved _ _).trans (List.append_nil _).symm⟩
    | _ => exact .inl ⟨rfl, (List.append_nil _).symm⟩

/-! ## Registrations -/

/-- How many registrations there were. -/
def registered (s : Shared) : Nat := s.taken + s.session.tracked

theorem counts_registrations :
    Counts id (fun e => e.tracked?.map Prod.snd) registered where
  step hstep := by
    cases hstep with
    | track c =>
      refine .inr ⟨rfl, ?_⟩
      simp only [registered, Session.tracked, Session.track, List.length_append,
        List.length_singleton]
      omega
    | use | close =>
      refine .inl ⟨rfl, ?_⟩
      simp only [registered, Session.tracked, Session.use_closers, Session.closeOne_closers]
    | _ => exact .inl ⟨rfl, rfl⟩

theorem drains_waiting : Drains Event.tracked? Event.taken? waiting where
  step hstep := by
    cases hstep with
    | track c =>
      refine .inl ⟨rfl, ?_⟩
      simp only [waiting, Session.track, List.zipIdx_append]
      rfl
    | begin => exact .inr ⟨rfl, rfl, rfl⟩
    | use | close =>
      refine .inl ⟨rfl, ?_⟩
      simp only [waiting, Session.use_closers, Session.closeOne_closers]
      exact (List.append_nil _).symm
    | _ => exact .inl ⟨rfl, (List.append_nil _).symm⟩

/-- What was closed, in order, and never forgotten. -/
theorem drains_closings :
    Drains (fun e => e.closed?.map Prod.fst) (fun _ => none) fun s => s.session.closings where
  step hstep := by
    cases hstep with
    | use => exact .inl ⟨rfl, (Session.use_closings _ _).trans (List.append_nil _).symm⟩
    | close => exact .inl ⟨rfl, Session.closeOne_closings _ _⟩
    | _ => exact .inl ⟨rfl, (List.append_nil _).symm⟩

theorem map_taken_set {calls : List CloseCall} {call : Nat} {c c' : CloseCall}
    (hcall : calls[call]? = some c) (hc : c'.taken = c.taken) :
    (calls.set call c').map CloseCall.taken = calls.map CloseCall.taken := by
  obtain ⟨hlt, rfl⟩ := List.getElem?_eq_some_iff.1 hcall
  have hlt' : call < (calls.map CloseCall.taken).length := by rwa [List.length_map]
  rw [List.map_set, hc, ← List.getElem_map CloseCall.taken (h := hlt'), List.set_getElem_self]

/-- What the calls of `close` took, call by call. -/
theorem drains_calls :
    Drains Event.taken? (fun _ => none) fun s => s.calls.map CloseCall.taken where
  step hstep := by
    cases hstep with
    | begin => exact .inl ⟨rfl, List.map_append⟩
    | close hcall =>
      refine .inl ⟨rfl, Eq.trans ?_ (List.append_nil _).symm⟩
      exact map_taken_set hcall rfl
    | finish hcall =>
      refine .inl ⟨rfl, Eq.trans ?_ (List.append_nil _).symm⟩
      exact map_taken_set hcall rfl
    | _ => exact .inl ⟨rfl, (List.append_nil _).symm⟩

/-! ## Where registrations are -/

/-- The registrations that are not closed yet: those in the hands of calls and those that wait. -/
def pending (s : Shared) : Multiset Registration :=
  ↑(s.calls.flatMap CloseCall.left) + ↑s.waiting

/-- What calls have to close, one call apart. -/
theorem exists_left_set {calls : List CloseCall} {call : Nat} {c : CloseCall}
    (hcall : calls[call]? = some c) : ∃ rest : Multiset Registration,
      ↑(calls.flatMap CloseCall.left) = (c.left : Multiset Registration) + rest ∧
      ∀ c' : CloseCall, ↑((calls.set call c').flatMap CloseCall.left) =
        (c'.left : Multiset Registration) + rest := by
  have hsplit (before after : List CloseCall) (c : CloseCall) :
      (↑((before ++ c :: after).flatMap CloseCall.left) : Multiset Registration) =
        ↑c.left + (↑(before.flatMap CloseCall.left) + ↑(after.flatMap CloseCall.left)) := by
    rw [List.flatMap_append, List.flatMap_cons, ← Multiset.coe_add, ← Multiset.coe_add,
      add_left_comm]
  obtain ⟨hlt, rfl⟩ := List.getElem?_eq_some_iff.1 hcall
  refine ⟨↑((calls.take call).flatMap CloseCall.left) +
    ↑((calls.drop (call + 1)).flatMap CloseCall.left), ?_, fun c' => ?_⟩
  · rw [← hsplit, List.getElem_cons_drop, List.take_append_drop]
  · rw [← hsplit, List.set_eq_take_cons_drop c' hlt]

/-- A step registers something, or closes something that was registered. -/
theorem Step.pending (hstep : Step s e t) :
    s.pending + ↑e.tracked?.toList = ↑e.closed?.toList + t.pending := by
  cases hstep with
  | track c there =>
    have hwaiting : waiting { s with session := s.session.track c } =
        s.waiting ++ [(c, s.taken + s.session.tracked)] := by
      rw [waiting, Session.track, List.zipIdx_append]
      rfl
    rw [Shared.pending, Shared.pending, hwaiting, ← Multiset.coe_add, add_assoc]
    exact (zero_add (_ + (_ : Multiset Registration))).symm
  | begin =>
    have hcalls : (↑((s.calls ++ [{ taken := s.waiting : CloseCall }]).flatMap CloseCall.left) :
        Multiset Registration) = ↑(s.calls.flatMap CloseCall.left) + ↑s.waiting := by
      rw [List.flatMap_append, ← Multiset.coe_add, List.flatMap_singleton]
      rfl
    rw [Shared.pending, ← hcalls]
    exact (zero_add (_ + (0 : Multiset Registration))).symm
  | @close call c r hcall hnext =>
    obtain ⟨rest, hbefore, hafter⟩ := exists_left_set hcall
    have hwaiting : waiting { s with
        session := s.session.closeOne r.1, calls := s.calls.set call c.next } = s.waiting := by
      rw [waiting, Session.closeOne_closers]
      rfl
    have hr : (↑c.left : Multiset Registration) = {r} + ↑c.next.left := by
      rw [CloseCall.left_eq_cons hnext]
      rfl
    rw [Shared.pending, Shared.pending, hwaiting, hbefore, hafter, hr]
    change _ + 0 = ({r} : Multiset Registration) + _
    rw [add_zero, add_assoc, add_assoc, add_assoc]
  | @finish call c hcall hdone =>
    obtain ⟨rest, hbefore, hafter⟩ := exists_left_set hcall
    rw [Shared.pending, Shared.pending, hbefore, hafter]
    exact add_comm _ 0
  | use u =>
    have hwaiting : waiting { s with session := s.session.use u } = s.waiting := by
      rw [waiting, Session.use_closers]
      rfl
    rw [Shared.pending, Shared.pending, hwaiting]
    exact add_comm _ 0
  | _ => exact add_comm s.pending 0

/-- Each registration that there was is pending or was closed. -/
theorem Steps.pending (hsteps : Steps s h t) :
    s.pending + ↑(registrations h) = ↑(closings h) + t.pending := by
  have hcons {α : Type} (f : Event → Option α) (e : Event) (h : List Event) :
      (↑((e :: h).filterMap f) : Multiset α) = ↑(f e).toList + ↑(h.filterMap f) := by
    cases hf : f e with
    | none =>
      rw [List.filterMap_cons_none hf]
      exact (zero_add _).symm
    | some a =>
      rw [List.filterMap_cons_some hf]
      rfl
  induction hsteps with
  | nil s => exact add_comm s.pending 0
  | cons step _ ih =>
    rw [registrations, closings, hcons, hcons, ← add_assoc, step.pending, add_assoc, add_assoc]
    exact congrArg _ ih

/-! ## Which slots are closed -/

theorem Step.length_slots_le (hstep : Step s e t) :
    s.session.slots.length ≤ t.session.slots.length := by
  cases hstep with
  | use u => exact s.session.length_le_use u
  | close => exact Nat.le_of_eq (Session.length_closeOne _ _).symm
  | _ => exact Nat.le_refl _

theorem Step.has (hstep : Step s e t) {c : Closer} (hc : s.session.Has c) : t.session.Has c := by
  cases c with
  | named name => trivial
  | slot id => exact Nat.lt_of_lt_of_le hc hstep.length_slots_le

theorem Step.mem_pending_of_closed {call : Nat} {r : Registration}
    (hstep : Step s (.closed call r) t) : r ∈ s.pending := by
  have hpending : s.pending = {r} + t.pending := (add_zero _).symm.trans hstep.pending
  rw [hpending]
  exact Multiset.mem_add.2 (.inl (Multiset.mem_singleton_self r))

/-- Whether everything that is not closed yet is there. -/
def Ready (s : Shared) : Prop := ∀ r ∈ s.pending, s.session.Has r.1

theorem Step.ready (hstep : Step s e t) (hs : s.Ready) : t.Ready := by
  intro r hr
  have hmem : r ∈ s.pending + ↑e.tracked?.toList := by
    rw [hstep.pending]
    exact Multiset.mem_add.2 (.inr hr)
  rcases Multiset.mem_add.1 hmem with hpending | htracked
  · exact hstep.has (hs r hpending)
  · cases hstep with
    | track c there =>
      obtain rfl := List.mem_singleton.1 htracked
      exact there
    | _ => cases htracked

/-- A step closes the slot of what it closes, and opens or closes no other one. -/
theorem Step.closed_slot (hstep : Step s e t) (hs : s.Ready) (id : SlotId) :
    t.session.slot? id = some .closed ↔
      s.session.slot? id = some .closed ∨ ∃ n, e.closed? = some (.slot id, n) := by
  cases hstep with
  | use u => simpa [Event.closed?] using s.session.closed_use u id
  | @close call c r hcall hnext =>
    obtain ⟨closer, n⟩ := r
    have hhas := hs _ (Step.close hcall hnext).mem_pending_of_closed
    rw [Session.closed_closeOne _ hhas]
    simp [Event.closed?]
  | _ => exact (or_iff_left fun ⟨_, hclosed⟩ => nomatch hclosed).symm

theorem Steps.closed_slot (hsteps : Steps s h t) (hs : s.Ready) (id : SlotId) :
    t.session.slot? id = some .closed ↔
      s.session.slot? id = some .closed ∨ ∃ n, (.slot id, n) ∈ closings h := by
  induction hsteps with
  | nil => simp [closings]
  | @cons s t u e h step _ ih =>
    rw [ih (step.ready hs), step.closed_slot hs, or_assoc, ← exists_or]
    refine or_congr_right (exists_congr fun n => ?_)
    rw [closings, closings, List.mem_filterMap, List.mem_filterMap, List.exists_mem_cons_iff]

/-- A call that has returned has nothing left to close. -/
theorem Step.left_of_returned (hstep : Step s e t)
    (hs : ∀ c ∈ s.calls, c.returned = true → c.left = []) :
    ∀ c ∈ t.calls, c.returned = true → c.left = [] := by
  cases hstep with
  | begin =>
    intro c hc hreturned
    rcases List.mem_append.1 hc with hc | hc
    · exact hs c hc hreturned
    · rw [List.mem_singleton.1 hc] at hreturned
      cases hreturned
  | @close call c r hcall hnext =>
    intro c' hc' hreturned
    rcases List.mem_or_eq_of_mem_set hc' with hc' | rfl
    · exact hs c' hc' hreturned
    · have hleft := hs c (List.mem_of_getElem? hcall) hreturned
      rw [CloseCall.left_eq_cons hnext] at hleft
      cases hleft
  | @finish call c hcall hdone =>
    intro c' hc' hreturned
    rcases List.mem_or_eq_of_mem_set hc' with hc' | rfl
    · exact hs c' hc' hreturned
    · exact CloseCall.left_eq_nil hdone
  | _ => exact hs

/-! ## Calls and what they closed -/

/-- What a call took is known from when it begins on. -/
theorem taken_of_began {call : Nat} {taken : List Registration}
    (hsteps : Steps s (.began call taken :: h) t) :
    (t.calls.map CloseCall.taken)[call]? = some taken := by
  have hcalls := drains_calls.piles_up hsteps
  obtain _ | ⟨hstep, -⟩ := hsteps
  cases hstep with
  | begin =>
    have hlength : s.calls.length = (s.calls.map CloseCall.taken).length :=
      (List.length_map _).symm
    rw [hcalls, hlength, List.getElem?_append_right (Nat.le_refl _), Nat.sub_self]
    rfl

/-- A call closes only what it took. -/
theorem mem_taken_of_closed {call : Nat} {r : Registration} (hsteps : Steps s h t)
    (hr : .closed call r ∈ h) :
    ∃ taken, (t.calls.map CloseCall.taken)[call]? = some taken ∧ r ∈ taken := by
  obtain ⟨before, after, rfl⟩ := List.append_of_mem hr
  obtain ⟨t', -, hsteps⟩ := steps_append.1 hsteps
  have hcalls := drains_calls.piles_up hsteps
  obtain _ | ⟨hstep, -⟩ := hsteps
  cases hstep with
  | @close call c r hcall hnext =>
    refine ⟨c.taken, ?_, List.mem_of_getElem? hnext⟩
    have htaken : (t'.calls.map CloseCall.taken)[call]? = some c.taken := by
      rw [List.getElem?_map, hcall]
      rfl
    obtain ⟨hlt, -⟩ := List.getElem?_eq_some_iff.1 htaken
    rw [hcalls, List.getElem?_append_left hlt, htaken]

/-! ## The books -/

/-- What holds after any steps of any callers of a fresh session. -/
structure Kept (h : List Event) (s : Shared) : Prop where
  /-- The traces have the numbers from 1 on, without gap or repetition. -/
  traced : traces h = (List.range s.session.traces).map fun n => Int.ofNat (n + 1)
  /-- The groups that were extracted, followed by those that are still saved, are those that were
      saved. -/
  extracted : (extractions h).flatten ++ s.session.saved = saves h
  /-- It makes no difference whether each extraction is reduced first. -/
  reduced : ∀ rest : List Observations,
    Observations.reduce ((extractions h).flatten ++ rest) =
      Observations.reduce ((extractions h).map Observations.reduce ++ rest)
  /-- Registrations are numbered, so no two are the same. -/
  numbered : (registrations h).map Prod.snd = List.range s.registered
  /-- Only what was registered is closed, and each registration at most once. -/
  closed_once : s.session.closings = (closings h).map Prod.fst ∧
    (∀ r ∈ closings h, r ∈ registrations h) ∧ ∀ r, (closings h).count r ≤ 1
  /-- What was registered before a call of `close` began is closed once when this call and all other
      ones have returned. -/
  closed_all : ∀ before call taken after, h = before ++ .began call taken :: after →
    (∀ c ∈ s.calls, c.returned = true) → ∀ r ∈ registrations before, (closings h).count r = 1
  /-- Closing something closes its slot, and slots are closed by nothing else. -/
  closed_slots : ∀ id, s.session.slot? id = some .closed ↔ ∃ n, (.slot id, n) ∈ closings h
  /-- A call of `close` does what is done in one go, when nobody else has a turn. -/
  closed_alone : ∃ t, Steps s (.began s.calls.length s.waiting ::
    (s.waiting.map (.closed s.calls.length) ++ [.returned s.calls.length])) t ∧
    t.session = s.session.close
  /-- Extracting again, with nothing saved in between, gives nothing. -/
  extracted_again : ∀ before groups mid groups' after,
    h = before ++ .extracted groups :: mid ++ .extracted groups' :: after →
    saves mid = [] → groups' = []
  /-- Closing again, with nothing registered in between, takes nothing and closes nothing. -/
  closed_again : ∀ before call taken mid call' taken' after,
    h = before ++ .began call taken :: mid ++ .began call' taken' :: after →
    registrations mid = [] → taken' = [] ∧ ∀ r, .closed call' r ∉ h

theorem registrations_append (h k : List Event) :
    registrations (h ++ k) = registrations h ++ registrations k :=
  List.filterMap_append

theorem registrations_numbered (hsteps : Steps {} h s) :
    (registrations h).map Prod.snd = List.range s.registered := by
  obtain ⟨-, hnumbers⟩ := counts_registrations.range hsteps
  rw [registrations, List.map_filterMap, hnumbers, List.map_id, List.range_eq_range']
  rfl

theorem registrations_nodup (hsteps : Steps {} h s) : (registrations h).Nodup := by
  refine List.Nodup.of_map Prod.snd ?_
  rw [registrations_numbered hsteps]
  exact List.nodup_range

/-- The registrations are those that were closed and those that are pending. -/
theorem registrations_eq (hsteps : Steps {} h s) :
    (registrations h : Multiset Registration) = ↑(closings h) + s.pending := by
  rw [← hsteps.pending]
  exact (zero_add _).symm

theorem closings_nodup (hsteps : Steps {} h s) : (closings h).Nodup := by
  have hle : (closings h : Multiset Registration) ≤ registrations h := by
    rw [registrations_eq hsteps]
    exact Multiset.le_add_right _ _
  have hnodup := Multiset.coe_nodup.2 (registrations_nodup hsteps)
  exact Multiset.coe_nodup.1 (Multiset.nodup_of_le hle hnodup)

/-- Where no call runs, what is not closed yet waits. -/
theorem pending_of_returned (hsteps : Steps {} h s) (hreturned : ∀ c ∈ s.calls, c.returned = true) :
    s.pending = ↑s.waiting := by
  have hleft : ∀ c ∈ s.calls, c.returned = true → c.left = [] :=
    hsteps.holds (by simp) fun hstep => hstep.left_of_returned
  have hcalls : s.calls.flatMap CloseCall.left = [] :=
    List.flatMap_eq_nil_iff.2 fun c hc => hleft c hc (hreturned c hc)
  rw [pending, hcalls]
  exact zero_add _

/-- Whatever was registered before a call began is closed when no call runs: the call left nothing
    waiting, so only what was registered later can wait. -/
theorem mem_closings_of_returned {before after : List Event} {call : Nat}
    {taken : List Registration} (hsteps : Steps {} (before ++ .began call taken :: after) s)
    (hreturned : ∀ c ∈ s.calls, c.returned = true) {r : Registration}
    (hr : r ∈ registrations before) : r ∈ closings (before ++ .began call taken :: after) := by
  have hsplit : registrations (before ++ .began call taken :: after) =
      registrations before ++ registrations after := registrations_append _ _
  have hnodup := registrations_nodup hsteps
  have hmem : r ∈ (↑(registrations (before ++ .began call taken :: after)) :
      Multiset Registration) := by
    rw [hsplit]
    exact List.mem_append_left _ hr
  rw [registrations_eq hsteps, pending_of_returned hsteps hreturned] at hmem
  refine (Multiset.mem_add.1 hmem).resolve_right fun hwaiting => ?_
  obtain ⟨t, -, hbegan⟩ := steps_append.1 hsteps
  obtain _ | ⟨hstep, hafter⟩ := hbegan
  have hflatten := drains_waiting.flatten hafter
  obtain ⟨hnone, -⟩ | ⟨-, -, hempty⟩ := drains_waiting.step hstep
  · cases hnone
  rw [hempty, List.nil_append] at hflatten
  have hlater : r ∈ registrations after := by
    rw [registrations, hflatten]
    exact List.mem_append_right _ hwaiting
  rw [hsplit] at hnodup
  exact List.disjoint_of_nodup_append hnodup hr hlater

theorem kept (hsteps : Steps {} h s) : Kept h s where
  traced := by
    obtain ⟨-, hnumbers⟩ := counts_traces.range hsteps
    rw [traces, hnumbers, List.range_eq_range']
    rfl
  extracted := (drains_saved.flatten hsteps).symm
  reduced := fun rest => by
    rw [Observations.reduce_append, Observations.reduce_append, Observations.reduce_flatten]
  numbered := registrations_numbered hsteps
  closed_once := by
    refine ⟨?_, fun r hr => ?_, List.nodup_iff_count_le_one.1 (closings_nodup hsteps)⟩
    · rw [drains_closings.piles_up hsteps, closings, List.map_filterMap]
      rfl
    · rw [← Multiset.mem_coe, registrations_eq hsteps]
      exact Multiset.mem_add.2 (.inl hr)
  closed_all := by
    rintro before call taken after rfl hreturned r hr
    exact List.count_eq_one_of_mem (closings_nodup hsteps)
      (mem_closings_of_returned hsteps hreturned hr)
  closed_slots := fun id => by
    have hready : Ready {} := fun r hr => absurd hr (Multiset.notMem_zero r)
    rw [hsteps.closed_slot hready]
    exact or_iff_right nofun
  closed_alone := close_alone s
  extracted_again := by
    rintro before groups mid groups' after rfl hmid
    exact drains_saved.again hsteps rfl hmid rfl
  closed_again := by
    rintro before call taken mid call' taken' after rfl hmid
    have hnil : taken' = [] := drains_waiting.again hsteps rfl hmid rfl
    refine ⟨hnil, fun r hr => ?_⟩
    obtain ⟨taken'', htaken, hmem⟩ := mem_taken_of_closed hsteps hr
    obtain ⟨t, -, hafter⟩ := steps_append.1 hsteps
    rw [taken_of_began hafter, hnil] at htaken
    cases htaken
    cases hmem

/-- A slot that is taken from before it is closed, and put into when it is too late. -/
theorem kept_of_two_closes :
    let stream : Stream := ⟨1, .tcp⟩
    let a : Registration := (.named "a", 0)
    let b : Registration := (.slot 0, 1)
    let o : Observations := { events := [{ operation := "tls_handshake", trace := 1 }] }
    let h : List Event := [.traced 1, .tracked a, .saved o, .began 0 [a], .used (.make stream),
      .tracked b, .used (.take 0), .began 1 [b], .closed 1 b, .extracted [o], .returned 1,
      .used (.restore 0 stream), .closed 0 a, .returned 0, .extracted []]
    ∃ s, Steps {} h s ∧ Kept h s ∧ s.session.slot? 0 = some .closed := by
  intro stream a b o h
  have hsteps : ∃ s, Steps {} h s :=
    ⟨_, .cons .newTrace <| .cons (.track a.1 trivial) <| .cons (.save o) <| .cons .begin <|
      .cons (.use (.make stream)) <| .cons (.track b.1 (Nat.lt_succ_self 0)) <|
      .cons (.use (.take 0)) <| .cons .begin <| .cons (.close rfl rfl) <| .cons .extract <|
      .cons (.finish rfl rfl rfl) <| .cons (.use (.restore 0 stream)) <|
      .cons (.close rfl rfl) <| .cons (.finish rfl rfl rfl) <| .cons .extract <| .nil _⟩
  obtain ⟨s, hs⟩ := hsteps
  have hkept := kept hs
  have hb : b ∈ closings h := List.mem_cons_self
  exact ⟨s, hs, hkept, (hkept.closed_slots 0).2 ⟨1, hb⟩⟩

end Shared

end NetProbe
