import NetProbe.Run.Schedule
set_option autoImplicit false

/-! # Work within contexts

How long work in a context may take, and what becomes of it. Attempts in a context that was called
off end at once, whatever the network would have answered (`Surroundings.ending_of_isCancelled`).
`Context.ending` tells only when work ends, and `Context.poll` how that comes about. If everything
that can end the work wakes it up, the one tells what the other does (`Context.poll_ending`), and
work in a context that was called off is never polled (`Context.poll_of_calledOff`). -/

namespace NetProbe

/-! ## Deadlines -/

namespace Context

theorem earlier_le (t : Time) (d : Option Time) : earlier t d ≤ t := by
  cases d with
  | none => exact Nat.le_refl t
  | some d =>
    rw [earlier]
    split
    · next h => exact Nat.le_of_lt h
    · exact Nat.le_refl t

theorem earlier_le_of_mem {t u : Time} {d : Option Time} (hu : u ∈ d) : earlier t d ≤ u := by
  obtain rfl := Option.mem_def.1 hu
  rw [earlier]
  split
  · exact Nat.le_refl u
  · next h => exact Nat.le_of_not_lt h

/-- The earlier one of a moment and the first of some others is the first of them all. -/
theorem earlier_min? (t : Time) (ts : List Time) : some (earlier t ts.min?) = (t :: ts).min? := by
  rw [List.min?_cons]
  cases ts.min? with
  | none => rfl
  | some d =>
    rw [earlier, Option.elim_some]
    split
    · next h => exact congrArg some (Nat.min_eq_right (Nat.le_of_lt h)).symm
    · next h => exact congrArg some (Nat.min_eq_left (Nat.le_of_not_lt h)).symm

/-- A context with an earlier deadline is called off with the other one. -/
theorem isCancelled_limit (c : Context) (now : Time) (timeout : Nat) (cancelled : List Nat) :
    (c.limit now timeout).isCancelled cancelled = c.isCancelled cancelled := rfl

theorem isCancelled_iff {c : Context} {cancelled : List Nat} :
    c.isCancelled cancelled = true ↔ ∃ a ∈ c.lineage, a ∈ cancelled := by
  simp only [isCancelled, List.any_eq_true, List.contains_iff_mem]

end Context

/-! ## Contexts that were called off -/

namespace Surroundings

/-- The numbers of the contexts that are called off by a moment. -/
def cancelledBy (e : Surroundings) (time : Time) : List Nat :=
  (e.cancelled.filter fun m => m.2 ≤ time).map Prod.fst

variable {e : Surroundings} {time : Time} {c : Context} {w : World}

/-- A context that is called off by a moment is so from some moment on that has passed. -/
theorem exists_calledOff (h : c.isCancelled (e.cancelledBy time) = true) :
    ∃ t ≤ time, e.calledOff c = some t := by
  obtain ⟨number, hnumber, hcancelled⟩ := Context.isCancelled_iff.1 h
  obtain ⟨m, hm, rfl⟩ := List.mem_map.1 hcancelled
  obtain ⟨hm, hpast⟩ := List.mem_filter.1 hm
  have hmem : m.2 ∈ (e.cancelled.filter fun m => c.lineage.contains m.1).map Prod.snd :=
    List.mem_map_of_mem (List.mem_filter.2 ⟨hm, List.contains_iff_mem.2 hnumber⟩)
  cases hmin : e.calledOff c with
  | none => exact absurd (List.min?_eq_none_iff.1 hmin ▸ hmem) List.not_mem_nil
  | some t =>
    have hfirst : t ≤ m.2 := (List.min?_eq_some_iff.1 hmin).2 _ hmem
    exact ⟨t, Nat.le_trans hfirst (of_decide_eq_true hpast), rfl⟩

/-- Attempts in a context that was called off end at once. -/
theorem ending_of_isCancelled (h : c.isCancelled (e.cancelledBy time) = true) (hw : time ≤ w.now)
    (a : Attempt) : e.ending w c a = some ⟨w.now, .error .cancelled⟩ := by
  obtain ⟨t, ht, hcalledOff⟩ := exists_calledOff h
  rw [ending, Context.ending, hcalledOff, Option.filter_some, if_pos]
  exact decide_eq_true (Nat.le_trans ht hw)

section Perform

variable (h : c.isCancelled (e.cancelledBy time) = true) (hw : time ≤ w.now)

include h hw

theorem perform_attempt (a : Attempt) :
    (e.perform (.attempt c a) w).1 = .now (.error .cancelled) := by
  rw [perform, ending_of_isCancelled h hw]
  exact if_pos (Nat.le_refl _)

theorem perform_attemptBoth (a b : Attempt) :
    (e.perform (.attemptBoth c a b) w).1 = .now (.error .cancelled, .error .cancelled) := by
  rw [perform, ending_of_isCancelled h hw, ending_of_isCancelled h (w := w.started 1) hw]
  exact if_pos (Nat.le_of_eq (Nat.max_self _))

end Perform

end Surroundings

/-! ## Polling -/

section Polling

variable {α : Type}

/-- Work that would be done at a moment, or never. -/
def workUntil (done : Option (Time × α)) (t : Time) : Option α :=
  (done.filter fun d => d.1 ≤ t).map Prod.snd

namespace Ending

/-- The first in a row of endings of those that are over by a moment. -/
def upTo (t : Time) (es : List (Option (Ending α))) : Option (Ending α) :=
  es.findSome? fun e => e.filter fun e => e.time ≤ t

variable {t : Time} {e : Ending α} {es : List (Option (Ending α))}

theorem upTo_some_of_le (h : e.time ≤ t) : upTo t (some e :: es) = some e := by
  simp [upTo, Option.filter, h]

theorem upTo_some_of_lt (h : t < e.time) : upTo t (some e :: es) = upTo t es := by
  simp [upTo, Option.filter, Nat.not_le.2 h]

theorem upTo_map {β : Type} (f : β → Ending α) (o : Option β) :
    upTo t (o.map f :: es) = ((o.filter fun b => (f b).time ≤ t).map f).or (upTo t es) := by
  rw [upTo, List.findSome?_cons, Option.filter_map]
  simp only [Function.comp_def]
  cases o.filter fun b => (f b).time ≤ t <;> rfl

theorem upTo_of_first_eq_none (h : first es = none) (t : Time) : upTo t es = none := by
  induction es with
  | nil => rfl
  | cons e es ih =>
    cases e with
    | none => exact ih h
    | some e =>
      rw [first] at h
      split at h
      · cases h
      · split at h <;> cases h

/-- The earliest of some endings is the first to be over. -/
theorem upTo_of_first_eq_some (h : first es = some e) :
    upTo e.time es = some e ∧ ∀ t < e.time, upTo t es = none := by
  induction es generalizing e with
  | nil => cases h
  | cons x es ih =>
    cases x with
    | none => exact ih h
    | some x =>
      rw [first] at h
      split at h
      · next hrest =>
        cases h
        refine ⟨upTo_some_of_le (Nat.le_refl _), fun t ht => ?_⟩
        rw [upTo_some_of_lt ht, upTo_of_first_eq_none hrest]
      · next f hrest =>
        obtain ⟨hfound, hbefore⟩ := ih hrest
        split at h
        · next hlt =>
          cases h
          refine ⟨by rw [upTo_some_of_lt hlt, hfound], fun t ht => ?_⟩
          rw [upTo_some_of_lt (Nat.lt_trans ht hlt), hbefore t ht]
        · next hle =>
          cases h
          refine ⟨upTo_some_of_le (Nat.le_refl _), fun t ht => ?_⟩
          rw [upTo_some_of_lt ht, hbefore t (Nat.lt_of_lt_of_le ht (Nat.le_of_not_lt hle))]

/-- Looking at moments one after the other finds the earliest ending, if one looks when it is. -/
theorem findSome?_upTo (h : first es = some e) {ts : List Time} (hts : ts.Pairwise (· < ·))
    (he : e.time ∈ ts) :
    (ts.findSome? fun t => (upTo t es).map fun e => (⟨t, e.result⟩ : Ending α)) = some e := by
  obtain ⟨hfound, hbefore⟩ := upTo_of_first_eq_some h
  induction ts with
  | nil => cases he
  | cons t rest ih =>
    obtain ⟨hlater, hrest⟩ := List.pairwise_cons.1 hts
    rw [List.findSome?_cons]
    rcases List.mem_cons.1 he with rfl | he
    · rw [hfound]
      rfl
    · rw [hbefore t (hlater _ he)]
      exact ih hrest he

end Ending

namespace Context

variable {c : Context} {now t : Time} {calledOff : Option Time}

/-- Nobody asks the work of a context that was called off, whether or not it would be done and
    whether or not the deadline has passed. -/
theorem poll_of_calledOff (h : calledOff = some t) (ht : t ≤ now) (work : Time → Option α)
    (wakeUps : List Time) :
    c.poll now calledOff work wakeUps = { polls := [], ending := some ⟨now, .error .cancelled⟩ } :=
  if_pos (by rw [h]; exact decide_eq_true ht)

/-- How work may end in a context. -/
def endings (c : Context) (now : Time) (calledOff : Option Time) (done : Option (Time × α)) :
    List (Option (Ending α)) :=
  [done.map fun d => ⟨d.1, .ok d.2⟩, calledOff.map fun t => ⟨t, .error .cancelled⟩,
    c.deadline.map fun t => ⟨Nat.max now t, .error .deadlineExceeded⟩]

/-- At each moment the work ends in the first way that is over by then. -/
theorem pollAt_ending (done : Option (Time × α)) {ts : List Time} (hts : ∀ t ∈ ts, now ≤ t) :
    (c.pollAt calledOff (workUntil done) ts).ending
      = ts.findSome? fun t => (Ending.upTo t (c.endings now calledOff done)).map fun e =>
          ⟨t, e.result⟩ := by
  induction ts with
  | nil => rfl
  | cons t rest ih =>
    obtain ⟨hnow, hrest⟩ := List.forall_mem_cons.1 hts
    have hpassed (u : Time) : Nat.max now u ≤ t ↔ u ≤ t :=
      Nat.max_le.trans (and_iff_right hnow)
    rw [List.findSome?_cons, pollAt, ← ih hrest, endings]
    simp only [Ending.upTo_map, hpassed, workUntil, ← Option.isSome_filter]
    cases done.filter fun d => d.1 ≤ t with
    | some d => rfl
    | none =>
      cases calledOff.filter fun u => u ≤ t with
      | some u => rfl
      | none => cases c.deadline.filter fun u => u ≤ t <;> rfl

/-- Polling work ends it as it should, if what ends it wakes it up. -/
theorem poll_ending {done : Option (Time × α)} {wakeUps : List Time}
    (hascending : (now :: wakeUps).Pairwise (· < ·))
    (hwakes : ∀ e, c.ending now calledOff done = some e → e.time ∈ now :: wakeUps) :
    (c.poll now calledOff (workUntil done) wakeUps).ending = c.ending now calledOff done := by
  rw [poll, ← Option.isSome_filter]
  rw [ending] at hwakes ⊢
  cases hbefore : calledOff.filter fun t => t ≤ now with
  | some t => rfl
  | none =>
    rw [hbefore] at hwakes
    have hnow : ∀ t ∈ now :: wakeUps, now ≤ t := List.forall_mem_cons.2
      ⟨Nat.le_refl now, fun t ht => Nat.le_of_lt ((List.pairwise_cons.1 hascending).1 t ht)⟩
    refine (pollAt_ending done hnow).trans ?_
    show _ = Ending.first (c.endings now calledOff done)
    cases hfirst : Ending.first (c.endings now calledOff done) with
    | none =>
      refine List.findSome?_eq_none_iff.2 fun t _ => ?_
      rw [Ending.upTo_of_first_eq_none hfirst]
      rfl
    | some e => exact Ending.findSome?_upTo hfirst hascending (hwakes e hfirst)

end Context

end Polling

end NetProbe
