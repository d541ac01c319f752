import Mathlib.Data.List.Perm.Basic
import NetProbe.Proofs.Run.Sequence
import NetProbe.Proofs.Run.Termination
set_option autoImplicit false

/-! # Activities with numbers

The steps of a pool do not say which of its activities they belong to. A `FanOut` is a pool whose
activities have the numbers of their places in a list, and `FanOut.Step` is a step of one of them,
which says so. Every run of a pool that starts with nothing running is one of a fan-out, up to where
it goes on with the values (`exists_sequence`), and what is said of numbers tells apart what the
pool does not: all activities start in order, each of them once, never more than there is room for,
and their values are collected in the order in which they finish (`FanOut.Ordered`). -/

namespace NetProbe

/-- The activities of a pool that are running, with their numbers, how many were started, and the
    values of those that finished, in this order. -/
structure FanOut where
  running : List (Nat × Activity) := []
  started : Nat := 0
  finished : List (Nat × Value) := []

namespace FanOut

/-- What an activity with a number does: it starts, takes a step, perhaps with an effect, or is
    found to have come to a value. -/
inductive Event where
  | started (i : Nat)
  | went (i : Nat) (l : Option Action)
  | finished (i : Nat) (v : Value)

variable {width : Nat} {ps : List Activity}

/-- What can happen next. -/
inductive Step (width : Nat) (ps : List Activity) (s : FanOut) : Event → FanOut → Prop
  | start {p : Activity} (room : s.running.length < max width 1) (next : ps[s.started]? = some p) :
    Step width ps s (.started s.started) { s with
      running := s.running ++ [(s.started, p)]
      started := s.started + 1 }
  | go {i : Nat} {p q : Activity} {l : Option Action} {before after : List (Nat × Activity)}
    (running : s.running = before ++ (i, p) :: after) (step : Activity.Step p l q) :
    Step width ps s (.went i l) { s with running := before ++ (i, q) :: after }
  | finish {i : Nat} {v : Value} {before after : List (Nat × Activity)}
    (running : s.running = before ++ (i, .done v) :: after) :
    Step width ps s (.finished i v) { s with
      running := before ++ after
      finished := s.finished ++ [(i, v)] }

/-- The pool without the numbers. -/
def activity (width : Nat) (ps : List Activity) (next : List Value → Activity) (s : FanOut) :
    Activity :=
  .pool width (s.running.map Prod.snd) (ps.drop s.started) (s.finished.map Prod.snd) next

/-- Everything was started and has finished. -/
def Over (ps : List Activity) (s : FanOut) : Prop :=
  s.running = [] ∧ ps.length ≤ s.started

/-! ## What happened -/

def Event.start? : Event → Option Nat
  | started i => some i
  | _ => none

def Event.effect? : Event → Option Action
  | went _ l => l
  | _ => none

def Event.finish? : Event → Option (Nat × Value)
  | finished i v => some (i, v)
  | _ => none

/-- The effect of one activity. -/
def Event.effectOf? (i : Nat) : Event → Option Action
  | went j l => if j = i then l else none
  | _ => none

def starts (h : List Event) : List Nat := h.filterMap Event.start?
def effects (h : List Event) : List Action := h.filterMap Event.effect?
def finishes (h : List Event) : List (Nat × Value) := h.filterMap Event.finish?
def effectsOf (i : Nat) (h : List Event) : List Action := h.filterMap (Event.effectOf? i)

theorem effects_cons (e : Event) (h : List Event) :
    effects (e :: h) = e.effect?.toList ++ effects h := by
  rw [effects, List.filterMap_cons]
  cases e.effect? <;> rfl

/-! ## Every run is one with numbers -/

variable {next : List Value → Activity} {s t : FanOut} {e : Event} {h : List Event}

/-- A step of the pool is one of an activity with a number, unless everything has finished. -/
theorem exists_step {l : Option Action} {r : Activity}
    (hstep : Activity.Step (s.activity width ps next) l r) :
    (∃ e t, Step width ps s e t ∧ r = t.activity width ps next ∧ l = e.effect?) ∨
      (s.Over ps ∧ l = none ∧ r = next (s.finished.map Prod.snd)) := by
  rcases Activity.step_pool hstep with ⟨before, p, after, q, hrunning, hgo, rfl⟩ |
    ⟨p, rest, hwaiting, hroom, rfl, rfl⟩ | ⟨before, v, after, hrunning, rfl, rfl⟩ |
    ⟨hrunning, hwaiting, rfl, rfl⟩
  · obtain ⟨bs, cs, hs, rfl, hcs⟩ := List.map_eq_append_iff.1 hrunning
    obtain ⟨⟨i, p'⟩, as, rfl, rfl, rfl⟩ := List.map_eq_cons_iff.1 hcs
    exact .inl ⟨.went i l, _, .go hs hgo, by simp [activity], rfl⟩
  · have hnext : ps[s.started]? = some p := by
      rw [← List.head?_drop, hwaiting, List.head?_cons]
    have hrest : ps.drop (s.started + 1) = rest := by
      rw [← List.tail_drop, hwaiting, List.tail_cons]
    rw [List.length_map] at hroom
    exact .inl ⟨.started s.started, _, .start hroom hnext, by simp [activity, hrest], rfl⟩
  · obtain ⟨bs, cs, hs, rfl, hcs⟩ := List.map_eq_append_iff.1 hrunning
    obtain ⟨⟨i, p'⟩, as, rfl, hp, rfl⟩ := List.map_eq_cons_iff.1 hcs
    obtain rfl : p' = .done v := hp
    exact .inl ⟨.finished i v, _, .finish hs, by simp [activity], rfl⟩
  · exact .inr ⟨⟨List.map_eq_nil_iff.1 hrunning, List.drop_eq_nil_iff.1 hwaiting⟩, rfl, rfl⟩

/-- A run of the pool is one of activities with numbers, up to where it goes on with the values. -/
theorem exists_sequence {h : List Action} {r : Activity}
    (hrun : Activity.Run (s.activity width ps next) h r) :
    ∃ k t, Sequence (Step width ps) s k t ∧
      ((r = t.activity width ps next ∧ h = effects k) ∨
        ∃ h', t.Over ps ∧ Activity.Run (next (t.finished.map Prod.snd)) h' r ∧
          h = effects k ++ h') := by
  generalize hp : s.activity width ps next = p at hrun
  induction hrun generalizing s with
  | refl p => exact ⟨[], s, .nil s, .inl ⟨hp.symm, rfl⟩⟩
  | @head p q r l h hstep hrest ih =>
    subst hp
    rcases exists_step hstep with ⟨e, t, hfirst, hq, rfl⟩ | ⟨hover, rfl, rfl⟩
    · obtain ⟨k, u, hk, hend⟩ := ih hq.symm
      refine ⟨e :: k, u, .cons hfirst hk, ?_⟩
      rw [effects_cons]
      rcases hend with ⟨rfl, rfl⟩ | ⟨h', hover, hrun, rfl⟩
      · exact .inl ⟨rfl, rfl⟩
      · exact .inr ⟨h', hover, hrun, (List.append_assoc _ _ _).symm⟩
    · exact ⟨[], s, .nil s, .inr ⟨h, hover, hrest, rfl⟩⟩

/-! ## What numbers tell -/

/-- All activities that were started, those that finished as the values that they came to. -/
def all (s : FanOut) : List (Nat × Activity) :=
  s.running ++ s.finished.map fun f => (f.1, .done f.2)

/-- What has become of all activities after some events. -/
structure Ordered (width : Nat) (ps : List Activity) (h : List Event) (s : FanOut) : Prop where
  bounded : s.running.length ≤ max width 1
  started_le : s.started ≤ ps.length
  /-- They start in order. -/
  in_order : starts h = List.range s.started
  /-- Each of them is running or has finished. -/
  once : (s.all.map Prod.fst).Perm (List.range s.started)
  /-- They finish in the order in which their values are found. -/
  completion : s.finished = finishes h
  /-- Each has done what is noted of it, from its start on. -/
  goes : ∀ m ∈ s.all, ∃ p, ps[m.1]? = some p ∧ Activity.Run p (effectsOf m.1 h) m.2
  /-- The others have done nothing. -/
  idle : ∀ i, s.started ≤ i → effectsOf i h = []

theorem filterMap_append_singleton {α β : Type} (f : α → Option β) (h : List α) (e : α) :
    (h ++ [e]).filterMap f = h.filterMap f ++ (f e).toList := by
  rw [List.filterMap_append, List.filterMap_cons]
  cases f e <;> rfl

namespace Ordered

/-- No two activities have the same number. -/
theorem ne_of_perm {i : Nat} {p : Activity} {rest : List (Nat × Activity)}
    (hs : Ordered width ps h s) (hall : s.all.Perm ((i, p) :: rest)) : ∀ m ∈ rest, m.1 ≠ i := by
  have hnodup : (((i, p) :: rest).map Prod.fst).Nodup :=
    ((hall.map Prod.fst).symm.trans hs.once).nodup_iff.2 List.nodup_range
  rw [List.map_cons, List.nodup_cons] at hnodup
  rintro m hm rfl
  exact hnodup.1 (List.mem_map.2 ⟨m, hm, rfl⟩)

theorem start {p : Activity} (hs : Ordered width ps h s) (hroom : s.running.length < max width 1)
    (hnext : ps[s.started]? = some p) :
    Ordered width ps (h ++ [.started s.started]) { s with
      running := s.running ++ [(s.started, p)]
      started := s.started + 1 } := by
  have heffects (i : Nat) : effectsOf i (h ++ [.started s.started]) = effectsOf i h := by
    rw [effectsOf, filterMap_append_singleton]
    exact List.append_nil _
  have hall : (all { s with
      running := s.running ++ [(s.started, p)]
      started := s.started + 1 }).Perm ((s.started, p) :: s.all) := by
    rw [all, all, List.append_assoc]
    exact List.perm_middle
  constructor
  · rw [List.length_append]
    exact hroom
  · exact (List.getElem?_eq_some_iff.1 hnext).1
  · rw [starts, filterMap_append_singleton, ← starts, hs.in_order, List.range_succ]
    rfl
  · rw [List.range_succ]
    exact ((hall.map Prod.fst).trans (hs.once.cons _)).trans (List.perm_append_singleton _ _).symm
  · rw [finishes, filterMap_append_singleton, ← finishes, ← hs.completion]
    exact (List.append_nil _).symm
  · intro m hm
    rw [heffects]
    rcases List.mem_cons.1 (hall.mem_iff.1 hm) with rfl | hm
    · rw [hs.idle s.started (Nat.le_refl _)]
      exact ⟨p, hnext, .refl p⟩
    · exact hs.goes m hm
  · intro i hi
    rw [heffects]
    exact hs.idle i (Nat.le_of_succ_le hi)

theorem go {i : Nat} {p q : Activity} {l : Option Action} {before after : List (Nat × Activity)}
    (hs : Ordered width ps h s) (hrunning : s.running = before ++ (i, p) :: after)
    (hstep : Activity.Step p l q) :
    Ordered width ps (h ++ [.went i l]) { s with running := before ++ (i, q) :: after } := by
  obtain ⟨rest, hold, hnew⟩ : ∃ rest, s.all.Perm ((i, p) :: rest) ∧
      (all { s with running := before ++ (i, q) :: after }).Perm ((i, q) :: rest) := by
    refine ⟨before ++ (after ++ s.finished.map fun f => (f.1, .done f.2)), ?_, ?_⟩
    · rw [all, hrunning, List.append_assoc]
      exact List.perm_middle
    · rw [all, List.append_assoc]
      exact List.perm_middle
  have hothers {j : Nat} (hj : i ≠ j) : effectsOf j (h ++ [.went i l]) = effectsOf j h := by
    rw [effectsOf, filterMap_append_singleton, Event.effectOf?, if_neg hj]
    exact List.append_nil _
  have hgone : effectsOf i (h ++ [.went i l]) = effectsOf i h ++ l.toList := by
    rw [effectsOf, filterMap_append_singleton, Event.effectOf?, if_pos rfl]
    rfl
  have hold' := (hold.map Prod.fst).symm.trans hs.once
  constructor
  · have hbounded := hs.bounded
    rw [hrunning] at hbounded
    simpa using hbounded
  · exact hs.started_le
  · rw [starts, filterMap_append_singleton, ← starts, hs.in_order]
    exact List.append_nil _
  · exact (hnew.map Prod.fst).trans hold'
  · rw [finishes, filterMap_append_singleton, ← finishes, ← hs.completion]
    exact (List.append_nil _).symm
  · intro m hm
    rcases List.mem_cons.1 (hnew.mem_iff.1 hm) with rfl | hm
    · obtain ⟨p', hp', hrun⟩ := hs.goes (i, p) (hold.mem_iff.2 List.mem_cons_self)
      rw [hgone]
      exact ⟨p', hp', hrun.trans hstep.run⟩
    · rw [hothers (hs.ne_of_perm hold m hm).symm]
      exact hs.goes m (hold.mem_iff.2 (List.mem_cons_of_mem _ hm))
  · intro j hj
    -- What goes on was started.
    have hi : i ∈ List.range s.started := hold'.mem_iff.1 List.mem_cons_self
    rw [hothers (by have := List.mem_range.1 hi; change s.started ≤ j at hj; omega)]
    exact hs.idle j hj

theorem finish {i : Nat} {v : Value} {before after : List (Nat × Activity)}
    (hs : Ordered width ps h s) (hrunning : s.running = before ++ (i, .done v) :: after) :
    Ordered width ps (h ++ [.finished i v]) { s with
      running := before ++ after
      finished := s.finished ++ [(i, v)] } := by
  have heffects (j : Nat) : effectsOf j (h ++ [.finished i v]) = effectsOf j h := by
    rw [effectsOf, filterMap_append_singleton]
    exact List.append_nil _
  have hall : (all { s with
      running := before ++ after
      finished := s.finished ++ [(i, v)] }).Perm s.all := by
    rw [all, all, hrunning, List.map_append, ← List.append_assoc]
    refine (List.perm_append_singleton _ _).trans ?_
    rw [List.append_assoc, List.append_assoc]
    exact List.perm_middle.symm
  constructor
  · have hbounded := hs.bounded
    rw [hrunning] at hbounded
    simp only [List.length_append, List.length_cons] at hbounded ⊢
    omega
  · exact hs.started_le
  · rw [starts, filterMap_append_singleton, ← starts, hs.in_order]
    exact List.append_nil _
  · exact (hall.map Prod.fst).trans hs.once
  · rw [finishes, filterMap_append_singleton, ← finishes, ← hs.completion]
    rfl
  · intro m hm
    rw [heffects]
    exact hs.goes m (hall.mem_iff.1 hm)
  · intro j hj
    rw [heffects]
    exact hs.idle j hj

/-- What is so after some events is so after one more. -/
theorem step (hs : Ordered width ps h s) (hstep : Step width ps s e t) :
    Ordered width ps (h ++ [e]) t := by
  cases hstep with
  | start room next => exact hs.start room next
  | go running step => exact hs.go running step
  | finish running => exact hs.finish running

end Ordered

theorem ordered_of_sequence (hsteps : Sequence (Step width ps) {} h s) :
    Ordered width ps h s := by
  refine hsteps.holds_after (P := Ordered width ps) (k := []) (fun hstep hs => hs.step hstep) ?_
  exact ⟨Nat.zero_le _, Nat.zero_le _, rfl, .refl [], rfl, fun _ hm => absurd hm List.not_mem_nil,
    fun _ _ => rfl⟩

/-! ## The values -/

/-- When everything has finished, the values are those of all activities, one each, in the order in
    which these finished. -/
theorem Ordered.exists_values (hs : Ordered width ps h s) (hover : s.Over ps) :
    ∃ vs : List Value, vs.length = ps.length ∧ (s.finished.map Prod.snd).Perm vs ∧
      ∀ i p, ps[i]? = some p →
        ∃ v, vs[i]? = some v ∧ Activity.Run p (effectsOf i h) (.done v) := by
  obtain ⟨hrunning, hlength⟩ := hover
  have hstarted : s.started = ps.length := Nat.le_antisymm hs.started_le hlength
  have hall : s.all = s.finished.map fun f => (f.1, .done f.2) := by
    rw [all, hrunning, List.nil_append]
  have hnumbers : (List.range ps.length).Perm (s.finished.map Prod.fst) := by
    have honce := hs.once
    rw [hall, hstarted, List.map_map] at honce
    exact honce.symm
  -- The same values in the order of the numbers.
  obtain ⟨fs, hfs, hperm⟩ := List.perm_comp_forall₂ (r := fun i f => f.1 = i) hnumbers
    (List.forall₂_map_left_iff.2 (List.forall₂_same.2 fun _ _ => rfl))
  refine ⟨fs.map Prod.snd, ?_, (hperm.map Prod.snd).symm, fun i p hp => ?_⟩
  · rw [List.length_map, ← hfs.length_eq, List.length_range]
  obtain ⟨hi, -⟩ := List.getElem?_eq_some_iff.1 hp
  have hi' : i < fs.length := by
    rw [← hfs.length_eq, List.length_range]
    exact hi
  have hnumber : fs[i].1 = i := by
    have := hfs.get (i := i) (by rwa [List.length_range]) hi'
    simpa using this
  have hmem : (i, Activity.done fs[i].2) ∈ s.all := by
    rw [hall]
    refine List.mem_map.2 ⟨fs[i], hperm.mem_iff.1 (List.getElem_mem hi'), ?_⟩
    rw [hnumber]
  obtain ⟨p', hp', hrun⟩ := hs.goes _ hmem
  rw [hp] at hp'
  refine ⟨fs[i].2, ?_, Option.some.inj hp' ▸ hrun⟩
  rw [List.getElem?_map, List.getElem?_eq_getElem hi']
  rfl

end FanOut

end NetProbe
