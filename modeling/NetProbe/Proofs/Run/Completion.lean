import NetProbe.Proofs.Run.FanOut
set_option autoImplicit false

/-! # How far a fan-out has come

What is so of the events of a fan-out, without its states: which activities have started, how many
were running at a time, which have finished and with which values. `FanOut.Underway` says it of any
fan-out, `FanOut.Through` of one in which all activities have finished. Every run of a pool that
starts with nothing running is under way, or has gone on with the values of all activities, in the
order in which these finished: `Activity.Run.of_all`. Every fan-out that is through is one of a run
(`FanOut.Through.run_all`), so these are all orders in which values can come. -/

namespace NetProbe

namespace FanOut

variable {width : Nat} {ps : List Activity} {k : List Event} {s : FanOut}

/-- What is so of a fan-out at any time. -/
structure Underway (width : Nat) (ps : List Activity) (k : List Event) : Prop where
  /-- Nothing else happens than steps of these activities. -/
  steps : ∃ s, Sequence (Step width ps) {} k s
  /-- They start in order, none of them twice. -/
  in_order : ∃ n ≤ ps.length, starts k = List.range n
  /-- Only so many have started and have not finished, now and at any time before. -/
  bounded : ∀ j, j <+: k → (starts j).length ≤ (finishes j).length + max width 1
  /-- None of them finishes twice. -/
  once : ((finishes k).map Prod.fst).Nodup
  /-- Each of those that have finished came to its value by what it did. -/
  values : ∀ f ∈ finishes k, ∃ p, ps[f.1]? = some p ∧ Activity.Run p (effectsOf f.1 k) (.done f.2)

/-- What is so when all activities have finished. -/
structure Through (width : Nat) (ps : List Activity) (k : List Event) : Prop
    extends Underway width ps k where
  started : starts k = List.range ps.length
  finished : ((finishes k).map Prod.fst).Perm (List.range ps.length)

/-- Those that were started are running or have finished. -/
theorem Ordered.length_starts (hs : Ordered width ps k s) :
    (starts k).length = (finishes k).length + s.running.length := by
  have honce := hs.once.length_eq
  rw [List.length_map, all, List.length_append, List.length_map, List.length_range] at honce
  rw [hs.in_order, List.length_range, ← hs.completion]
  omega

theorem underway_of_sequence (hsteps : Sequence (Step width ps) {} k s) : Underway width ps k := by
  have hs : Ordered width ps k s := ordered_of_sequence hsteps
  refine ⟨⟨s, hsteps⟩, ⟨s.started, hs.started_le, hs.in_order⟩, ?_, ?_, fun f hf => ?_⟩
  · rintro j ⟨rest, rfl⟩
    obtain ⟨t, ht, -⟩ := hsteps.exists_of_append
    have hordered : Ordered width ps j t := ordered_of_sequence ht
    rw [hordered.length_starts]
    exact Nat.add_le_add_left hordered.bounded _
  · have hnodup : (s.all.map Prod.fst).Nodup := hs.once.nodup_iff.2 List.nodup_range
    rw [all, List.map_append, List.map_map] at hnodup
    rw [← hs.completion]
    exact (List.nodup_append.1 hnodup).2.1
  · rw [← hs.completion] at hf
    exact hs.goes (f.1, .done f.2) (List.mem_append_right _ (List.mem_map.2 ⟨f, hf, rfl⟩))

theorem through_of_sequence (hsteps : Sequence (Step width ps) {} k s) (hover : s.Over ps) :
    Through width ps k := by
  have hs : Ordered width ps k s := ordered_of_sequence hsteps
  have hstarted : s.started = ps.length := Nat.le_antisymm hs.started_le hover.2
  refine { underway_of_sequence hsteps with
    started := by rw [hs.in_order, hstarted]
    finished := ?_ }
  have honce := hs.once
  rw [all, hover.1, List.nil_append, List.map_map, hs.completion, hstarted] at honce
  exact honce

/-- Each of the activities finishes. -/
theorem Through.exists_finish (h : Through width ps k) {i : Nat} (hi : i < ps.length) :
    ∃ v, (i, v) ∈ finishes k := by
  obtain ⟨f, hf, rfl⟩ := List.mem_map.1 (h.finished.mem_iff.2 (List.mem_range.2 hi))
  exact ⟨f.2, hf⟩

end FanOut

open FanOut (Underway Through)

/-- A run of a pool is one of a fan-out that is still under way, or that is through and has gone on
    with the values, the first that was found first. -/
theorem Activity.Run.of_all {width : Nat} {ps : List Activity} {next : List Value → Activity}
    {h : List Action} {r : Activity} (hrun : Run (Activity.all width ps next) h r) :
    ∃ k, (Underway width ps k ∧ h = FanOut.effects k ∧ ∀ w, r ≠ .done w) ∨
      Through width ps k ∧ ∃ h', h = FanOut.effects k ++ h' ∧
        Run (next ((FanOut.finishes k).map Prod.snd)) h' r := by
  obtain ⟨k, s, hsteps, hend⟩ := FanOut.exists_sequence (s := {}) hrun
  refine ⟨k, ?_⟩
  rcases hend with ⟨rfl, heffects⟩ | ⟨h', hover, hrest, heffects⟩
  · exact .inl ⟨FanOut.underway_of_sequence hsteps, heffects, fun w => Activity.noConfusion⟩
  · rw [(FanOut.ordered_of_sequence hsteps).completion] at hrest
    exact .inr ⟨FanOut.through_of_sequence hsteps hover, h', heffects, hrest⟩

/-! ## Every order can come about -/

namespace FanOut

variable {width : Nat} {ps : List Activity} {next : List Value → Activity} {k : List Event}
  {s t : FanOut}

theorem Step.activity_step {e : Event} (hstep : Step width ps s e t) :
    Activity.Step (s.activity width ps next) e.effect? (t.activity width ps next) := by
  cases hstep with
  | @start p room hnext =>
    obtain ⟨hlt, rfl⟩ := List.getElem?_eq_some_iff.1 hnext
    rw [activity, List.drop_eq_getElem_cons hlt, activity, List.map_append]
    exact .start width _ _ _ _ next (by rwa [List.length_map])
  | @go i p q l before after running hgo =>
    rw [activity, running, List.map_append, List.map_cons, activity, List.map_append]
    exact .branch width _ _ _ _ next hgo
  | @finish i v before after running =>
    rw [activity, running, List.map_append, List.map_cons, activity, List.map_append,
      List.map_append]
    exact .finish width _ v _ _ _ next

theorem run_of_sequence (hsteps : Sequence (Step width ps) s k t) :
    Activity.Run (s.activity width ps next) (effects k) (t.activity width ps next) := by
  induction hsteps with
  | nil s => exact .refl _
  | @cons s t u e h first _ ih =>
    rw [effects_cons]
    exact .head first.activity_step ih

/-- When all activities have finished, none is running. -/
theorem Through.over (h : Through width ps k) (hsteps : Sequence (Step width ps) {} k s) :
    s.Over ps := by
  have hs : Ordered width ps k s := ordered_of_sequence hsteps
  have hstarts := hs.length_starts
  have hfinishes := h.finished.length_eq
  rw [List.length_map, List.length_range] at hfinishes
  rw [h.started, List.length_range] at hstarts
  have hstarted : List.range ps.length = List.range s.started := h.started.symm.trans hs.in_order
  have hlength := congrArg List.length hstarted
  rw [List.length_range, List.length_range] at hlength
  exact ⟨List.length_eq_zero_iff.1 (by omega), Nat.le_of_eq hlength⟩

/-- A fan-out that is through is a run of the pool up to where it goes on with the values. -/
theorem Through.run_all (h : Through width ps k) :
    Activity.Run (Activity.all width ps next) (effects k)
      (next ((finishes k).map Prod.snd)) := by
  obtain ⟨s, hsteps⟩ := h.steps
  have hover := h.over hsteps
  have hend : s.activity width ps next = .pool width [] [] ((finishes k).map Prod.snd) next := by
    rw [activity, hover.1, List.map_nil, List.drop_eq_nil_iff.2 hover.2,
      (ordered_of_sequence hsteps).completion]
  have hrun : Activity.Run (Activity.all width ps next) (effects k)
      (s.activity width ps next) := run_of_sequence hsteps
  rw [hend] at hrun
  have hgather := (Activity.Step.gather width ((finishes k).map Prod.snd) next).run
  simpa using hrun.trans hgather

end FanOut

end NetProbe
