import Mathlib.Data.List.Perm.Basic
import NetProbe.Proofs.Pairs
import NetProbe.Proofs.Run.Moments
import NetProbe.Proofs.Run.Termination
set_option autoImplicit false

/-! # The scheduler takes steps

`Surroundings.run` decides when attempts end and which activity goes on first, and keeps those that
wait in an order of its own. Whatever it comes to, some run of the activity comes to as well, with
the answers of the surroundings at their moments (`drives_of_run`) and those of the session
(`reaches_of_run`); so what is known about all runs is known about what the scheduler does on every
network.

`Parked.Holds` says which activity a parked one stands for. Running activities of a pool may stand
in another order. -/

namespace NetProbe

namespace Activity

/-- The second activity comes after the first in a session, which becomes the second one. -/
def Reaches (p : Activity) (σ : Session) (q : Activity) (τ : Session) : Prop :=
  ∃ h, Run p h q ∧ σ.Gives h ∧ σ.after h = τ

end Activity

open Activity (Reaches)

/-- In surroundings the session has its way. -/
theorem Surroundings.Drives.reaches {s : Surroundings} {p q : Activity} {w w' : World}
    (h : s.Drives p w q w') : Reaches p w.session q w'.session := by
  obtain ⟨h, hrun, htells⟩ := h
  exact ⟨actions h, hrun, htells.gives⟩

/-! ## What parked activities stand for -/

/-- Which activity a parked one stands for. One that is stuck stands for any: it never goes on. -/
inductive Parked.Holds : Parked → Activity → Prop
  | done (v : Value) : Holds (.done v) (.done v)
  | waiting (time : Time) (number : Nat) (p : Activity) : Holds (.waiting time number p) p
  | stuck (p : Activity) : Holds .stuck p
  | pool {running : List Parked} {ps qs : List Activity} (width : Nat) (waiting : List Activity)
      (finished : List Value) (next : List Value → Activity) :
      List.Forall₂ Holds running ps → qs.Perm ps →
      Holds (.pool width running waiting finished next) (.pool width qs waiting finished next)

/-- Whether these are the running activities of a pool: those of a crew, and some that are still to
    be gone on with. -/
def Crew.Holds (c : Crew) (rest all : List Activity) : Prop :=
  ∃ ps, List.Forall₂ Parked.Holds c.running ps ∧ all.Perm (ps ++ rest)

namespace Crew

@[simp] theorem waiting_add (c : Crew) (p : Parked) : (c.add p).waiting = c.waiting := by
  cases p <;> rfl

/-- One activity of a pool goes on until it is parked, and is put aside if it has finished. -/
theorem holds_add {c : Crew} {p q : Activity} {parked : Parked} {rest all : List Activity}
    {s : Surroundings} {w w' : World} (hc : c.Holds (p :: rest) all) (hq : parked.Holds q)
    (hpq : s.Drives p w q w') (width : Nat) (waiting : List Activity)
    (next : List Value → Activity) :
    ∃ all', (c.add parked).Holds rest all' ∧
      s.Drives (.pool width all waiting c.finished next) w
        (.pool width all' waiting (c.add parked).finished next) w' := by
  obtain ⟨ps, hps, hperm⟩ := hc
  -- The crew only knows the running activities up to their order: this one is anywhere among them.
  obtain ⟨before, after, rfl⟩ := List.append_of_mem
    (hperm.mem_iff.2 (List.mem_append_right ps List.mem_cons_self))
  have hothers : (before ++ after).Perm (ps ++ rest) := by
    have := (List.perm_middle.symm.trans hperm).trans List.perm_middle
    exact List.perm_cons p |>.1 this
  have hgo := hpq.branch width before after waiting c.finished next
  have hkeep : (before ++ q :: after).Perm ((ps ++ [q]) ++ rest) := by
    rw [List.append_assoc]
    exact (List.perm_middle.trans (hothers.cons q)).trans List.perm_middle.symm
  have hadd : List.Forall₂ Parked.Holds (c.running ++ [parked]) (ps ++ [q]) :=
    List.rel_append hps (.cons hq .nil)
  cases hq with
  | done v =>
    exact ⟨before ++ after, ⟨ps, hps, hothers⟩,
      hgo.trans (.of_step (.finish width before v after waiting c.finished next) w')⟩
  | waiting time number p => exact ⟨_, ⟨_, hadd, hkeep⟩, hgo⟩
  | stuck p => exact ⟨_, ⟨_, hadd, hkeep⟩, hgo⟩
  | pool width' waiting' finished' next' hrunning hqs => exact ⟨_, ⟨_, hadd, hkeep⟩, hgo⟩

end Crew

/-! ## Going on -/

/-- Whether going on with an activity until it is parked is a run of it. -/
def Activity.Advances (s : Surroundings) (p : Activity) : Prop :=
  ∀ w : World, ∃ q, (advance s p w).1.Holds q ∧ s.Drives p w q (advance s p w).2

section Pools

variable {s : Surroundings} (width : Nat) (next : List Value → Activity)

theorem advanceAll_drives (waiting : List Activity) {ps : List Activity}
    (hps : ∀ p ∈ ps, p.Advances s) {c : Crew} {all : List Activity} (hc : c.Holds ps all)
    (w : World) :
    ∃ all', (advanceAll s ps c w).1.Holds [] all' ∧
      s.Drives (.pool width all waiting c.finished next) w
        (.pool width all' waiting (advanceAll s ps c w).1.finished next)
        (advanceAll s ps c w).2 := by
  induction ps generalizing c all w with
  | nil => exact ⟨all, hc, .refl _ _⟩
  | cons p ps ih =>
    obtain ⟨q, hq, hpq⟩ := hps p List.mem_cons_self w
    obtain ⟨all', hc', hgo⟩ := Crew.holds_add hc hq hpq width waiting next
    obtain ⟨all'', hc'', hrest⟩ := ih (fun p hp => hps p (List.mem_cons_of_mem _ hp)) hc'
      (advance s p w).2
    exact ⟨all'', hc'', hgo.trans hrest⟩

theorem advanceAll_waiting (ps : List Activity) (c : Crew) (w : World) :
    (advanceAll s ps c w).1.waiting = c.waiting := by
  induction ps generalizing c w with
  | nil => rfl
  | cons p ps ih => exact (ih _ _).trans (c.waiting_add _)

/-- Starting activities is a run of the pool, after which none waits unless another one runs. -/
theorem fill_drives {ps : List Activity} (hps : ∀ p ∈ ps, p.Advances s) {c : Crew}
    {all : List Activity} (hc : c.Holds [] all) (hwaiting : c.waiting = []) (w : World) :
    ∃ all', (fill s width ps c w).1.Holds [] all' ∧
      ((fill s width ps c w).1.running = [] → (fill s width ps c w).1.waiting = []) ∧
      s.Drives (.pool width all ps c.finished next) w
        (.pool width all' (fill s width ps c w).1.waiting (fill s width ps c w).1.finished next)
        (fill s width ps c w).2 := by
  induction ps generalizing c all w with
  | nil =>
    refine ⟨all, hc, fun _ => hwaiting, ?_⟩
    rw [fill, hwaiting]
    exact .refl _ _
  | cons p ps ih =>
    rw [fill]
    by_cases hroom : c.running.length < max width 1
    · rw [if_pos hroom]
      have hc' : c.Holds [p] (all ++ [p]) := by
        obtain ⟨rs, hrs, hperm⟩ := hc
        rw [List.append_nil] at hperm
        exact ⟨rs, hrs, hperm.append_right [p]⟩
      have hall : all.length < max width 1 := by
        obtain ⟨rs, hrs, hperm⟩ := hc
        rw [hperm.length_eq, List.append_nil, ← hrs.length_eq]
        exact hroom
      obtain ⟨q, hq, hpq⟩ := hps p List.mem_cons_self w
      obtain ⟨all', hall', hgo⟩ := Crew.holds_add hc' hq hpq width ps next
      obtain ⟨all'', hall'', hempty, hrest⟩ := ih (fun p hp => hps p (List.mem_cons_of_mem _ hp))
        hall' ((c.waiting_add _).trans hwaiting) (advance s p w).2
      exact ⟨all'', hall'', hempty,
        (Surroundings.Drives.of_step (.start width all p ps c.finished next hall) w).trans
          (hgo.trans hrest)⟩
    · rw [if_neg hroom]
      refine ⟨all, hc, fun hnone => ?_, .refl _ _⟩
      simp only at hnone
      rw [hnone, List.length_nil] at hroom
      omega

/-- What the scheduler does with a pool once its running activities are parked. -/
def refill (s : Surroundings) (width : Nat) (waiting : List Activity)
    (next : List Value → Activity) (c : Crew) (w : World) : Parked × World :=
  let (c, w) := fill s width waiting c w
  if c.running.isEmpty then advance s (next c.finished) w
  else (.pool width c.running c.waiting c.finished next, w)

theorem refill_drives (hnext : ∀ vs, (next vs).Advances s) {waiting : List Activity}
    (hps : ∀ p ∈ waiting, p.Advances s) {c : Crew} {all : List Activity} (hc : c.Holds [] all)
    (hwaiting : c.waiting = []) (w : World) :
    ∃ q, (refill s width waiting next c w).1.Holds q ∧
      s.Drives (.pool width all waiting c.finished next) w q
        (refill s width waiting next c w).2 := by
  obtain ⟨all', ⟨rs, hrs, hperm⟩, hempty, hfill⟩ :=
    fill_drives width next hps hc hwaiting w
  rw [List.append_nil] at hperm
  rw [refill]
  generalize fill s width waiting c w = filled at *
  obtain ⟨c', w'⟩ := filled
  simp only at *
  split
  · next h =>
    -- Nothing waits either then, since there is always room for one.
    have hnone : c'.running = [] := List.isEmpty_iff.1 h
    rw [hnone] at hrs
    cases hrs
    rw [hempty hnone, hperm.eq_nil] at hfill
    obtain ⟨q, hq, hgo⟩ := hnext c'.finished w'
    exact ⟨q, hq, (hfill.trans (.of_step (.gather width c'.finished next) w')).trans hgo⟩
  · exact ⟨_, .pool width c'.waiting c'.finished next hrs hperm, hfill⟩

end Pools

theorem advance_pool (s : Surroundings) (width : Nat) (running waiting : List Activity)
    (finished : List Value) (next : List Value → Activity) (w : World) :
    advance s (.pool width running waiting finished next) w =
      refill s width waiting next (advanceAll s running { finished } w).1
        (advanceAll s running { finished } w).2 := by
  rw [advance, refill]

mutual

/-- Going on with an activity until it is parked is a run of it. -/
theorem advances (s : Surroundings) : ∀ p : Activity, p.Advances s
  | .done v, w => by
    rw [advance]
    exact ⟨.done v, .done v, .refl _ _⟩
  | .perform e next, w => by
    rw [advance]
    cases h : s.perform e w with
    | mk reply w' =>
      obtain rfl : (s.perform e w).2 = w' := congrArg Prod.snd h
      have hreply : (s.perform e w).1 = reply := congrArg Prod.fst h
      cases reply with
      | now a =>
        obtain ⟨q, hq, hgo⟩ := advances s (next a) (s.perform e w).2
        exact ⟨q, hq, (Surroundings.Drives.of_brings (hreply ▸ rfl)).trans hgo⟩
      | later time number a =>
        exact ⟨next a, .waiting time number _, .of_brings (hreply ▸ rfl)⟩
      | never => exact ⟨.perform e next, .stuck _, .of_never hreply⟩
  | .pool width running waiting finished next, w => by
    have hstart : Crew.Holds { finished } running running := ⟨[], .nil, .refl running⟩
    obtain ⟨all, hall, hgo⟩ := advanceAll_drives width next waiting (allAdvance s running) hstart w
    obtain ⟨q, hq, hrest⟩ := refill_drives width next (fun vs => advances s (next vs))
      (allAdvance s waiting) hall (advanceAll_waiting running { finished } w) _
    rw [advance_pool]
    exact ⟨q, hq, hgo.trans hrest⟩

theorem allAdvance (s : Surroundings) : ∀ (ps : List Activity), ∀ p ∈ ps, p.Advances s
  | [], _, hp => by cases hp
  | p :: ps, q, hq => by
    rcases List.mem_cons.1 hq with hqp | hq
    · rw [hqp]
      exact advances s p
    · exact allAdvance s ps q hq

end

/-! ## Letting time pass -/

namespace Parked

/-- Whether a turn goes on with the activity that its parked one stands for. -/
def Turn.Sound (t : Turn) (s : Surroundings) : Prop :=
  ∀ p, t.parked.Holds p → ∀ w : World,
    ∃ q, (t.resume w).1.Holds q ∧ s.Drives p w q (t.resume w).2

/-- Going on with some activities of a pool, one after the other. -/
theorem foldl_resume_drives {s : Surroundings} (width : Nat) (next : List Value → Activity)
    (waiting : List Activity) {ts : List Turn} (hts : ∀ t ∈ ts, t.Sound s) {ps : List Activity}
    (hps : List.Forall₂ (fun t p => t.parked.Holds p) ts ps) {c : Crew} {all : List Activity}
    (hc : c.Holds ps all) (w : World) :
    let result := ts.foldl (fun (crew, w) t =>
      let (q, w) := t.resume w
      (crew.add q, w)) (c, w)
    result.1.waiting = c.waiting ∧ ∃ all', result.1.Holds [] all' ∧
      s.Drives (.pool width all waiting c.finished next) w
        (.pool width all' waiting result.1.finished next) result.2 := by
  induction hps generalizing c all w with
  | nil => exact ⟨rfl, all, hc, .refl _ _⟩
  | @cons t p ts ps ht _ ih =>
    obtain ⟨q, hq, hpq⟩ := hts t List.mem_cons_self p ht w
    obtain ⟨all', hc', hgo⟩ := Crew.holds_add hc hq hpq width waiting next
    obtain ⟨hwaiting, all'', hc'', hrest⟩ :=
      ih (fun t ht => hts t (List.mem_cons_of_mem _ ht)) hc' (t.resume w).2
    exact ⟨hwaiting.trans (c.waiting_add _), all'', hc'', hgo.trans hrest⟩

/-- The activities whose attempts have ended, in order, behind the others. -/
theorem turns_perm (ts : List Turn) :
    ((ts.filter fun t => t.number.isNone) ++
      (ts.filter fun t => t.number.isSome).mergeSort fun t u =>
        t.number.getD 0 ≤ u.number.getD 0).Perm ts := by
  have hnone : (fun t : Turn => t.number.isNone) = fun t => !t.number.isSome := by
    funext t
    cases t.number <;> rfl
  rw [hnone]
  exact ((List.mergeSort_perm _ _).append_left _).trans
    (List.perm_append_comm.trans (List.filter_append_perm _ ts))

theorem takeTurns_drives {s : Surroundings} (width : Nat) (next : List Value → Activity)
    (waiting : List Activity) (finished : List Value) {ts : List Turn}
    (hts : ∀ t ∈ ts, t.Sound s) {ps all : List Activity}
    (hps : List.Forall₂ (fun t p => t.parked.Holds p) ts ps) (hall : all.Perm ps) (w : World) :
    (takeTurns ts { finished } w).1.waiting = [] ∧
      ∃ all', (takeTurns ts { finished } w).1.Holds [] all' ∧
        s.Drives (.pool width all waiting finished next) w
          (.pool width all' waiting (takeTurns ts { finished } w).1.finished next)
          (takeTurns ts { finished } w).2 := by
  obtain ⟨qs, hqs, hperm⟩ := List.perm_comp_forall₂ (turns_perm ts) hps
  rw [takeTurns]
  generalize hrs : (ts.filter fun t => t.number.isSome).mergeSort _ = ready at hqs
  generalize (ts.filter fun t => t.number.isNone) = idle at hqs
  have hmem : ∀ t ∈ ready, t.Sound s := by
    intro t ht
    rw [← hrs, List.mem_mergeSort] at ht
    exact hts t (List.mem_filter.1 ht).1
  obtain ⟨is, rs, hidle, hready, rfl⟩ := exists_append_of_forall₂ hqs
  have hc : Crew.Holds { finished, running := idle.map Turn.parked } rs all := by
    refine ⟨is, ?_, hall.trans hperm.symm⟩
    rw [List.forall₂_map_left_iff]
    exact hidle
  exact foldl_resume_drives width next waiting hmem hready hc w

theorem turn_parked (s : Surroundings) (time : Time) (p : Parked) :
    (p.turn s time).parked = p := by
  cases p <;> rw [turn]

theorem forall₂_turnAll (s : Surroundings) (time : Time) {rs : List Parked} {ps : List Activity}
    (h : List.Forall₂ Holds rs ps) :
    List.Forall₂ (fun t p => t.parked.Holds p) (turnAll s time rs) ps := by
  induction h with
  | nil => exact .nil
  | @cons r p rs ps hp _ ih =>
    rw [turnAll]
    refine .cons ?_ ih
    rw [turn_parked]
    exact hp

mutual

/-- How an activity goes on at a moment is a run of it. -/
theorem sound_turn (s : Surroundings) (time : Time) : ∀ p : Parked, (p.turn s time).Sound s
  | .done v => fun p hp w => ⟨p, hp, .refl _ _⟩
  | .stuck => fun p hp w => ⟨p, hp, .refl _ _⟩
  | .waiting moment number r => fun p hp w => by
    cases hp with
    | waiting _ _ _ => exact advances s r w
  | .pool width running queued finished next => fun p hp w => by
    cases hp with
    | pool _ _ _ _ hps hperm =>
      obtain ⟨hwaiting, all, hall, hgo⟩ := takeTurns_drives width next queued finished
        (sound_turnAll s time running) (forall₂_turnAll s time hps) hperm w
      obtain ⟨q, hq, hrest⟩ := refill_drives width next (fun vs => advances s (next vs))
        (allAdvance s queued) hall hwaiting _
      exact ⟨q, hq, hgo.trans hrest⟩

theorem sound_turnAll (s : Surroundings) (time : Time) :
    ∀ (rs : List Parked), ∀ t ∈ turnAll s time rs, t.Sound s
  | [], _, ht => by cases ht
  | r :: rs, t, ht => by
    rcases List.mem_cons.1 ht with htr | ht
    · rw [htr]
      exact sound_turn s time r
    · exact sound_turnAll s time rs t ht

end

theorem turn_drives (s : Surroundings) (time : Time) {r : Parked} {p : Activity} (hp : r.Holds p)
    (w : World) :
    ∃ q, ((r.turn s time).resume w).1.Holds q ∧
      s.Drives p w q ((r.turn s time).resume w).2 := by
  rw [← turn_parked s time r] at hp
  exact sound_turn s time r p hp w

/-- What an activity comes to when time passes, a run of it comes to. -/
theorem finish_drives {s : Surroundings} {moments : Nat} {r : Parked} {w w' : World} {v : Value}
    (h : r.finish s moments w = some (v, w')) {p : Activity} (hp : r.Holds p) :
    s.Drives p w (.done v) w' := by
  fun_induction finish s moments r w generalizing p with
  | case1 moments u w =>
    obtain ⟨rfl, rfl⟩ := Prod.mk.inj (Option.some.inj h)
    cases hp
    exact .refl _ _
  | case2 => cases h
  | case3 => cases h
  | case4 moments r w _ time _ next w'' hnext ih =>
    obtain ⟨q, hq, hgo⟩ := turn_drives s time hp { w with now := max w.now time }
    rw [hnext] at hq hgo
    have hlater : w.now ≤ max w.now time := Nat.le_max_left _ _
    exact (Surroundings.Drives.wait p hlater).trans (hgo.trans (ih h hq))

end Parked

/-- What the scheduler comes to, a run comes to, with the answers of the surroundings. -/
theorem Surroundings.drives_of_run {s : Surroundings} {moments : Nat} {p : Activity}
    {w w' : World} {v : Value} (h : s.run moments p w = some (v, w')) :
    s.Drives p w (.done v) w' := by
  obtain ⟨q, hq, hgo⟩ := advances s p w
  exact hgo.trans (Parked.finish_drives h hq)

/-- What the scheduler comes to, a run comes to, with the answers of the session. -/
theorem Surroundings.reaches_of_run {s : Surroundings} {moments : Nat} {p : Activity}
    {w w' : World} {v : Value} (h : s.run moments p w = some (v, w')) :
    Reaches p w.session (.done v) w'.session :=
  (s.drives_of_run h).reaches

/-- What every run comes to, the scheduler comes to. -/
theorem Activity.Settles.of_surroundings {Q : Value → Session → Prop} {p : Activity} {w w' : World}
    (hp : p.Settles Q w.session) {s : Surroundings} {moments : Nat} {v : Value}
    (h : s.run moments p w = some (v, w')) : Q v w'.session := by
  obtain ⟨k, hrun, hgives, hafter⟩ := s.reaches_of_run h
  exact hafter ▸ hp.of_run hrun hgives

end NetProbe
