import NetProbe.Operation
import NetProbe.Proofs.Run.FanOut
import NetProbe.Proofs.Run.Scheduler
set_option autoImplicit false

/-! # Nobody waits for nothing

When the scheduler lets time pass, it has gone on with everything that can go on. So an activity of
a pool that was not started by then waits only because as many others as there is room for are under
way (`Packed`): starting activities goes on until there is no room, and when some have finished, the
next ones start at once.

Together with what is so in every run, this is what several operations at the same time do, or one
operation with several values (`fannedOut_operations`). -/

namespace NetProbe

/-- What the scheduler may have parked of an activity, whenever it went on with it. -/
inductive Surroundings.Parks (s : Surroundings) (p : Activity) : Parked → Prop
  | advance (w : World) : Parks s p (advance s p w).1
  | turn {r : Parked} (time : Time) (w : World) (parked : Parks s p r) :
    Parks s p ((r.turn s time).resume w).1

open Surroundings (Parks)

namespace Crew

variable (c : Crew) (p : Parked)

/-- How many activities a crew knows that were started. -/
def size (c : Crew) : Nat := c.running.length + c.finished.length

theorem size_add : (c.add p).size = c.size + 1 := by
  cases p <;> simp [add, size] <;> omega

theorem running_add_le : (c.add p).running.length ≤ c.running.length + 1 := by
  cases p <;> simp [add]

theorem mem_running_add {c : Crew} {p r : Parked} (hr : r ∈ (c.add p).running) :
    r ∈ c.running ∨ r = p := by
  cases p with
  | done v => exact .inl hr
  | _ => simpa [add] using hr

end Crew

/-! ## Filling a pool -/

section Pools

variable {s : Surroundings} {width : Nat}

/-- What filling a pool with some activities makes of its crew. -/
structure Filled (s : Surroundings) (width : Nat) (ps : List Activity) (c d : Crew) : Prop where
  le_size : c.size ≤ d.size
  size_le : d.size ≤ c.size + ps.length
  waiting : d.waiting = ps.drop (d.size - c.size)
  room : d.running.length ≤ max width 1
  /-- Who waits waits because there is no room. -/
  full : d.size < c.size + ps.length → d.running.length = max width 1
  mem : ∀ r ∈ d.running, r ∈ c.running ∨ ∃ p ∈ ps, Parks s p r

theorem filled_fill (ps : List Activity) {c : Crew} (hroom : c.running.length ≤ max width 1)
    (hwaiting : c.waiting = []) (w : World) : Filled s width ps c (fill s width ps c w).1 := by
  induction ps generalizing c w with
  | nil =>
    rw [fill]
    exact {
      le_size := Nat.le_refl _
      size_le := Nat.le_refl _
      waiting := hwaiting.trans List.drop_nil.symm
      room := hroom
      full := fun h => absurd h (Nat.lt_irrefl _)
      mem := fun r hr => .inl hr }
  | cons p ps ih =>
    rw [fill]
    by_cases h : c.running.length < max width 1
    · rw [if_pos h]
      have hadd : (c.add (advance s p w).1).running.length ≤ max width 1 :=
        Nat.le_trans (c.running_add_le _) h
      have hfilled := ih hadd ((c.waiting_add _).trans hwaiting) (advance s p w).2
      have hsize := c.size_add (advance s p w).1
      generalize (fill s width ps (c.add (advance s p w).1) (advance s p w).2).1 = d at hfilled ⊢
      have hle := hfilled.le_size
      have hge := hfilled.size_le
      rw [hsize] at hle hge
      refine ⟨by omega, by rw [List.length_cons]; omega, ?_, hfilled.room, fun hd => ?_, ?_⟩
      · have hdrop : d.size - c.size = d.size - (c.size + 1) + 1 := by omega
        rw [hfilled.waiting, hsize, hdrop, List.drop_succ_cons]
      · rw [List.length_cons] at hd
        exact hfilled.full (by omega)
      · intro r hr
        rcases hfilled.mem r hr with hr | ⟨p', hp', hparks⟩
        · rcases Crew.mem_running_add hr with hr | rfl
          · exact .inl hr
          · exact .inr ⟨p, List.mem_cons_self, .advance w⟩
        · exact .inr ⟨p', List.mem_cons_of_mem p hp', hparks⟩
    · rw [if_neg h]
      exact {
        le_size := Nat.le_refl _
        size_le := Nat.le_add_right _ _
        waiting := by rw [Crew.size, Crew.size, Nat.sub_self, List.drop_zero]
        room := hroom
        full := fun _ => Nat.le_antisymm hroom (Nat.le_of_not_lt h)
        mem := fun r hr => .inl hr }

/-! ## Pools that are parked -/

/-- The crew of a pool of these activities that nothing can be done for at the moment. -/
structure Packed (s : Surroundings) (width : Nat) (ps : List Activity) (c : Crew) : Prop where
  size_le : c.size ≤ ps.length
  waiting : c.waiting = ps.drop c.size
  room : c.running.length ≤ max width 1
  /-- Who waits waits because there is no room. -/
  full : c.size < ps.length → c.running.length = max width 1
  mem : ∀ r ∈ c.running, ∃ p ∈ ps, Parks s p r

theorem Filled.packed {ps : List Activity} {c d : Crew} (hd : Filled s width (ps.drop c.size) c d)
    (hc : c.size ≤ ps.length) (hmem : ∀ r ∈ c.running, ∃ p ∈ ps, Parks s p r) :
    Packed s width ps d := by
  have hle := hd.le_size
  have hge := hd.size_le
  have hfull := hd.full
  rw [List.length_drop] at hge hfull
  refine ⟨by omega, ?_, hd.room, fun h => hfull (by omega), fun r hr => ?_⟩
  · rw [hd.waiting, List.drop_drop]
    congr 1
    omega
  · rcases hd.mem r hr with hr | ⟨p, hp, hparks⟩
    · exact hmem r hr
    · exact ⟨p, List.mem_of_mem_drop hp, hparks⟩

/-- What becomes of a pool when what runs is parked: it is packed, or goes on with the values. -/
theorem parks_refill {ps : List Activity} (next : List Value → Activity) {c : Crew}
    (hc : c.size ≤ ps.length) (hroom : c.running.length ≤ max width 1) (hwaiting : c.waiting = [])
    (hmem : ∀ r ∈ c.running, ∃ p ∈ ps, Parks s p r) (w : World) :
    (∃ d, Packed s width ps d ∧ (refill s width (ps.drop c.size) next c w).1 =
      .pool width d.running d.waiting d.finished next) ∨
    ∃ vs, vs.length = ps.length ∧
      Parks s (next vs) (refill s width (ps.drop c.size) next c w).1 := by
  have hpacked := (filled_fill (s := s) (ps.drop c.size) hroom hwaiting w).packed hc hmem
  rw [refill]
  generalize fill s width (ps.drop c.size) c w = filled at hpacked ⊢
  obtain ⟨d, w'⟩ := filled
  simp only at hpacked ⊢
  split
  · next h =>
    have hnone : d.running.length = 0 := by
      rw [List.isEmpty_iff.1 h, List.length_nil]
    refine .inr ⟨d.finished, ?_, .advance w'⟩
    -- There is always room for one, so nothing waits.
    have hsize : d.size = d.finished.length := by
      rw [Crew.size, hnone, Nat.zero_add]
    rw [← hsize]
    refine Nat.le_antisymm hpacked.size_le (Nat.le_of_not_lt fun hlt => ?_)
    have hfull := hpacked.full hlt
    omega
  · exact .inl ⟨d, hpacked, rfl⟩

end Pools

/-! ## Letting time pass -/

namespace Parked

/-- Going on with some activities neither loses nor adds any. -/
theorem foldl_resume_size (ts : List Turn) (c : Crew) (w : World) :
    let result := ts.foldl (fun (crew, w) t =>
      let (q, w) := t.resume w
      (crew.add q, w)) (c, w)
    result.1.size = c.size + ts.length ∧
      result.1.running.length ≤ c.running.length + ts.length ∧ result.1.waiting = c.waiting ∧
      ∀ r ∈ result.1.running, r ∈ c.running ∨ ∃ t ∈ ts, ∃ w, r = (t.resume w).1 := by
  induction ts generalizing c w with
  | nil => exact ⟨rfl, Nat.le_refl _, rfl, fun r hr => .inl hr⟩
  | cons t ts ih =>
    obtain ⟨hsize, hlength, hwaiting, hmem⟩ := ih (c.add (t.resume w).1) (t.resume w).2
    have hadd := c.size_add (t.resume w).1
    have hle := c.running_add_le (t.resume w).1
    rw [List.foldl_cons, List.length_cons]
    refine ⟨hsize.trans (by omega), Nat.le_trans hlength (by omega),
      hwaiting.trans (c.waiting_add _), fun r hr => ?_⟩
    rcases hmem r hr with hr | ⟨u, hu, hresume⟩
    · rcases Crew.mem_running_add hr with hr | rfl
      · exact .inl hr
      · exact .inr ⟨t, List.mem_cons_self, w, rfl⟩
    · exact .inr ⟨u, List.mem_cons_of_mem t hu, hresume⟩

theorem turnAll_eq_map (s : Surroundings) (time : Time) (rs : List Parked) :
    turnAll s time rs = rs.map (turn s time) := by
  induction rs with
  | nil => rfl
  | cons r rs ih => rw [turnAll, ih, List.map_cons]

/-- What taking turns makes of the crew of a pool. -/
theorem takeTurns_size (s : Surroundings) (time : Time) (c : Crew) (w : World) :
    let d := (takeTurns (turnAll s time c.running) { finished := c.finished } w).1
    d.size = c.size ∧ d.running.length ≤ c.running.length ∧ d.waiting = [] ∧
      ∀ r ∈ d.running, r ∈ c.running ∨
        ∃ q ∈ c.running, ∃ w, r = ((q.turn s time).resume w).1 := by
  rw [takeTurns, turnAll_eq_map]
  have hperm := turns_perm (c.running.map (turn s time))
  have hlength := hperm.length_eq
  generalize hidle : (c.running.map (turn s time)).filter (fun t => t.number.isNone) = idle
    at hperm hlength
  generalize hready : ((c.running.map (turn s time)).filter fun t => t.number.isSome).mergeSort _ =
    ready at hperm hlength
  rw [List.length_append, List.length_map] at hlength
  obtain ⟨hsize, hrunning, hwaiting, hmem⟩ :=
    foldl_resume_size ready { finished := c.finished, running := idle.map Turn.parked } w
  simp only [Crew.size, List.length_map] at hsize hrunning ⊢
  refine ⟨by omega, by omega, hwaiting, fun r hr => ?_⟩
  rcases hmem r hr with hr | ⟨t, ht, w', rfl⟩
  · obtain ⟨t, ht, rfl⟩ := List.mem_map.1 hr
    obtain ⟨q, hq, rfl⟩ := List.mem_map.1 (hperm.mem_iff.1 (List.mem_append_left _ ht))
    rw [turn_parked]
    exact .inl hq
  · obtain ⟨q, hq, rfl⟩ := List.mem_map.1 (hperm.mem_iff.1 (List.mem_append_right _ ht))
    exact .inr ⟨q, hq, w', rfl⟩

end Parked

/-- Whenever time passes, a pool is packed, or it has come to all values and goes on with them. -/
theorem Surroundings.Parks.all {s : Surroundings} {width : Nat} {ps : List Activity}
    {next : List Value → Activity} {r : Parked} (h : Parks s (Activity.all width ps next) r) :
    (∃ c, Packed s width ps c ∧ r = .pool width c.running c.waiting c.finished next) ∨
      ∃ vs, vs.length = ps.length ∧ Parks s (next vs) r := by
  induction h with
  | advance w =>
    have hnone : ∀ r ∈ ({} : Crew).running, ∃ p ∈ ps, Parks s p r := by simp
    rw [Activity.all, advance_pool]
    exact parks_refill (c := {}) next (Nat.zero_le _) (Nat.zero_le _) rfl hnone w
  | @turn r time w _ ih =>
    rcases ih with ⟨c, hc, rfl⟩ | ⟨vs, hvs, hparks⟩
    · obtain ⟨hsize, hrunning, hwaiting, hmem⟩ :=
        Parked.takeTurns_size s time c w
      have hmem' : ∀ r ∈ (Parked.takeTurns (Parked.turnAll s time c.running)
          { finished := c.finished } w).1.running, ∃ p ∈ ps, Parks s p r := by
        intro r hr
        rcases hmem r hr with hr | ⟨q, hq, w', rfl⟩
        · exact hc.mem r hr
        · obtain ⟨p, hp, hparks⟩ := hc.mem q hq
          exact ⟨p, hp, hparks.turn time w'⟩
      have hrefill := parks_refill next (Nat.le_trans (Nat.le_of_eq hsize) hc.size_le)
        (Nat.le_trans hrunning hc.room) hwaiting hmem'
      rw [hsize, ← hc.waiting] at hrefill
      exact hrefill _
    · exact .inr ⟨vs, hvs, hparks.turn time w⟩

/-! ## Several at the same time -/

/-- What a pool is like that starts with nothing running. -/
structure FannedOut (width : Nat) (ps : List Activity) (next : List Value → Activity) : Prop where
  /-- Every run of it is one of activities with numbers, which start in order, each of them once,
      and never more than there is room for. It goes on only when all of them have finished, with
      the value of each, in the order in which they finished. -/
  runs : ∀ {h r}, Activity.Run (Activity.all width ps next) h r →
    ∃ k t, Sequence (FanOut.Step width ps) {} k t ∧ FanOut.Ordered width ps k t ∧
      ((r = t.activity width ps next ∧ h = FanOut.effects k) ∨
        ∃ h' vs, t.Over ps ∧ Activity.Run (next (t.finished.map Prod.snd)) h' r ∧
          h = FanOut.effects k ++ h' ∧ (t.finished.map Prod.snd).Perm vs ∧
          vs.length = ps.length ∧ ∀ i p, ps[i]? = some p →
            ∃ v, vs[i]? = some v ∧ Activity.Run p (FanOut.effectsOf i k) (.done v))
  /-- When the scheduler has nothing to go on with, and not all have finished, those that were not
      started wait only because there is no room. -/
  parks : ∀ {s r}, Parks s (Activity.all width ps next) r →
    (∃ c, Packed s width ps c ∧ r = .pool width c.running c.waiting c.finished next) ∨
      ∃ vs, vs.length = ps.length ∧ Parks s (next vs) r

theorem fannedOut (width : Nat) (ps : List Activity) (next : List Value → Activity) :
    FannedOut width ps next where
  runs := by
    intro h r hrun
    obtain ⟨k, t, hk, hend⟩ := FanOut.exists_sequence (s := {}) hrun
    have hordered := FanOut.ordered_of_sequence hk
    refine ⟨k, t, hk, hordered, hend.imp_right ?_⟩
    rintro ⟨h', hover, hrun', heffects⟩
    obtain ⟨vs, hlength, hperm, hvalues⟩ := hordered.exists_values hover
    exact ⟨h', vs, hover, hrun', heffects, hperm, hlength, hvalues⟩
  parks := fun hparks => hparks.all

theorem Operation.branches_eq_map (s : Scope) (ops : List Operation) (v : Value) :
    branches s ops v = ops.map fun op => op.apply s v := by
  induction ops with
  | nil => rw [branches, List.map_nil]
  | cons op ops ih => rw [branches, ih, List.map_cons]

/-- Several operations on a value, or one operation on several values, whatever the operations do
    and whatever the number is of those that may be under way. -/
theorem fannedOut_operations (width : Nat) (s : Scope) (next : List Value → Activity) :
    (∀ ops v, Operation.branches s ops v = ops.map (fun op => op.apply s v) ∧
      FannedOut width (Operation.branches s ops v) next) ∧
    ∀ (op : Operation) (vs : List Value), FannedOut width (vs.map (op.apply s)) next :=
  ⟨fun ops v => ⟨Operation.branches_eq_map s ops v, fannedOut width _ next⟩,
    fun op vs => fannedOut width (vs.map (op.apply s)) next⟩

end NetProbe
