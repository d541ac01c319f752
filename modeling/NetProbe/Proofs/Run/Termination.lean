import NetProbe.Proofs.Run.Step
set_option autoImplicit false

/-! # Runs come to an end

Activities are finite: in whatever order the branches of pools take turns and whatever the answers
are, no activity goes on for ever (`acc_step`). A step of a pool either shrinks its branches, one of
which goes on or is away, or leaves them as they are and lets one less of them wait; so the proof is
an induction on the branches inside one on the activity.

Since no activity gets stuck either, a statement about all runs that came to an end is one about all
runs: `Settles` says that every way to go on ends, and ends well, and `settles_of_run` brings it
down to the former. -/

namespace NetProbe

namespace Activity

/-! ## Steps of a pool -/

/-- What a step of a pool can be. -/
theorem step_pool {width : Nat} {running waiting : List Activity} {finished : List Value}
    {next : List Value → Activity} {l : Option Action} {r : Activity}
    (h : Step (.pool width running waiting finished next) l r) :
    (∃ before p after q, running = before ++ p :: after ∧ Step p l q ∧
        r = .pool width (before ++ q :: after) waiting finished next) ∨
      (∃ p rest, waiting = p :: rest ∧ running.length < max width 1 ∧ l = none ∧
        r = .pool width (running ++ [p]) rest finished next) ∨
      (∃ before v after, running = before ++ .done v :: after ∧ l = none ∧
        r = .pool width (before ++ after) waiting (finished ++ [v]) next) ∨
      (running = [] ∧ waiting = [] ∧ l = none ∧ r = next finished) := by
  cases h with
  | @branch p q _ _ before after _ _ _ hstep =>
    exact .inl ⟨before, p, after, q, rfl, hstep, rfl⟩
  | start _ _ p rest _ _ hroom => exact .inr (.inl ⟨p, rest, rfl, hroom, rfl, rfl⟩)
  | finish _ before v after _ _ _ => exact .inr (.inr (.inl ⟨before, v, after, rfl, rfl, rfl⟩))
  | gather _ _ _ => exact .inr (.inr (.inr ⟨rfl, rfl, rfl, rfl⟩))

/-! ## Nothing goes on for ever -/

/-- `q` comes after `p`. -/
def Follows (q p : Activity) : Prop := ∃ l, Step p l q

/-- What comes after some branches: one of them has gone on, or is away. -/
inductive Shrinks : List Activity → List Activity → Prop
  | branch {p q : Activity} (before after : List Activity) :
      Follows q p → Shrinks (before ++ q :: after) (before ++ p :: after)
  | drop (before : List Activity) (p : Activity) (after : List Activity) :
      Shrinks (before ++ after) (before ++ p :: after)

theorem Shrinks.append {ps qs : List Activity} (h : Shrinks qs ps) (rest : List Activity) :
    Shrinks (qs ++ rest) (ps ++ rest) := by
  cases h with
  | branch before after hstep => simpa using Shrinks.branch before (after ++ rest) hstep
  | drop before p after => simpa using Shrinks.drop before p (after ++ rest)

theorem shrinks_cons {p : Activity} {ps qs : List Activity} (h : Shrinks qs (p :: ps)) :
    (∃ q, Follows q p ∧ qs = q :: ps) ∨ qs = ps ∨ ∃ rest, Shrinks rest ps ∧ qs = p :: rest := by
  generalize hps : p :: ps = all at h
  cases h with
  | @branch a b before after hstep =>
    cases before with
    | nil =>
      obtain ⟨rfl, rfl⟩ := List.cons.inj hps
      exact .inl ⟨b, hstep, rfl⟩
    | cons c before =>
      obtain ⟨rfl, rfl⟩ := List.cons.inj hps
      exact .inr (.inr ⟨_, .branch before after hstep, rfl⟩)
  | drop before a after =>
    cases before with
    | nil =>
      obtain ⟨rfl, rfl⟩ := List.cons.inj hps
      exact .inr (.inl rfl)
    | cons c before =>
      obtain ⟨rfl, rfl⟩ := List.cons.inj hps
      exact .inr (.inr ⟨_, .drop before a after, rfl⟩)

theorem acc_cons {p : Activity} {ps : List Activity} (hp : Acc Follows p) (hps : Acc Shrinks ps) :
    Acc Shrinks (p :: ps) := by
  induction hp generalizing ps with
  | intro p _ ihp =>
    induction hps with
    | intro ps hps ihps =>
      refine .intro _ fun qs hqs => ?_
      rcases shrinks_cons hqs with ⟨q, hq, rfl⟩ | rfl | ⟨rest, hrest, rfl⟩
      · exact ihp q hq (.intro ps hps)
      · exact .intro _ hps
      · exact ihps rest hrest

theorem acc_shrinks {ps : List Activity} (h : ∀ p ∈ ps, Acc Follows p) : Acc Shrinks ps := by
  induction ps with
  | nil =>
    refine .intro _ fun qs hqs => ?_
    generalize hps : [] = all at hqs
    cases hqs <;> simp at hps
  | cons p ps ih =>
    exact acc_cons (h p List.mem_cons_self) (ih fun q hq => h q (List.mem_cons_of_mem p hq))

/-- A pool ends if its branches do and what follows it does: a step moves a branch on or takes one
    away, or leaves the branches as they are and one less of them waiting. -/
theorem acc_pool {width : Nat} {next : List Value → Activity} (hnext : ∀ vs, Acc Follows (next vs))
    {all : List Activity} (hall : Acc Shrinks all) :
    ∀ (waiting running : List Activity) (finished : List Value), running ++ waiting = all →
      Acc Follows (.pool width running waiting finished next) := by
  induction hall with
  | intro all _ ih =>
    intro waiting
    -- A branch that starts leaves all branches as they are, so `ih` does not help with it.
    induction waiting with
    | nil =>
      rintro running finished rfl
      refine .intro _ fun r ⟨l, hr⟩ => ?_
      rcases step_pool hr with ⟨before, p, after, q, rfl, hstep, rfl⟩ | ⟨p, rest, hw, -⟩ |
        ⟨before, v, after, rfl, -, rfl⟩ | ⟨-, -, -, rfl⟩
      · exact ih _ ((Shrinks.branch before after ⟨l, hstep⟩).append []) [] _ _ rfl
      · cases hw
      · exact ih _ ((Shrinks.drop before (.done v) after).append []) [] _ _ rfl
      · exact hnext finished
    | cons w waiting ihw =>
      rintro running finished rfl
      refine .intro _ fun r ⟨l, hr⟩ => ?_
      rcases step_pool hr with ⟨before, p, after, q, rfl, hstep, rfl⟩ | ⟨p, rest, hw, -, -, rfl⟩ |
        ⟨before, v, after, rfl, -, rfl⟩ | ⟨-, hw, -⟩
      · exact ih _ ((Shrinks.branch before after ⟨l, hstep⟩).append _) _ _ _ rfl
      · obtain ⟨rfl, rfl⟩ := List.cons.inj hw
        exact ihw _ _ (by simp)
      · exact ih _ ((Shrinks.drop before (.done v) after).append _) _ _ _ rfl
      · cases hw

mutual

/-- No activity goes on for ever. -/
theorem acc_step : ∀ p : Activity, Acc Follows p
  | .done v => .intro _ fun q ⟨_, h⟩ => by cases h
  | .perform e next => by
    refine .intro _ fun q ⟨l, h⟩ => ?_
    cases h with
    | perform _ _ a => exact acc_step (next a)
  | .pool width running waiting finished next =>
    acc_pool (fun vs => acc_step (next vs))
      (acc_shrinks fun p hp => (List.mem_append.1 hp).elim (acc_all running p) (acc_all waiting p))
      waiting running finished rfl

theorem acc_all : ∀ (ps : List Activity), ∀ p ∈ ps, Acc Follows p
  | [], _, hp => by cases hp
  | p :: ps, q, hq => by
    rcases List.mem_cons.1 hq with hqp | hq
    · rw [hqp]
      exact acc_step p
    · exact acc_all ps q hq

end

/-! ## Every run comes to an end -/

/-- Every activity can be brought to an end, with a history in which a session has its way. -/
theorem exists_run_done (p : Activity) (σ : Session) :
    ∃ h v, Run p h (.done v) ∧ σ.Gives h := by
  have hacc := acc_step p
  induction hacc generalizing σ with
  | intro p _ ih =>
    rcases exists_step σ p with ⟨v, rfl⟩ | ⟨l, q, hstep, hgives⟩
    · exact ⟨[], v, .refl _, trivial⟩
    · obtain ⟨h, v, hrun, hgives'⟩ := ih q ⟨l, hstep⟩ (σ.after l.toList)
      exact ⟨_, v, .head hstep hrun, Session.gives_append.2 ⟨hgives, hgives'⟩⟩

/-- However the activity goes on in a session, it ends, with a value and a session of this kind. -/
inductive Settles (Q : Value → Session → Prop) : Activity → Session → Prop
  | done {v : Value} {σ : Session} : Q v σ → Settles Q (.done v) σ
  | step {p : Activity} {σ : Session} :
      (∃ l q, Step p l q ∧ σ.Gives l.toList) →
      (∀ l q, Step p l q → σ.Gives l.toList → Settles Q q (σ.after l.toList)) → Settles Q p σ

variable {Q : Value → Session → Prop}

/-- What holds at the end of every run that comes to an end, every run comes to. -/
theorem settles_of_run {p : Activity} {σ : Session}
    (hQ : ∀ h v, Run p h (.done v) → σ.Gives h → Q v (σ.after h)) : p.Settles Q σ := by
  -- Along a path that never came to an end, `hQ` would say nothing.
  have hacc := acc_step p
  induction hacc generalizing σ with
  | intro p _ ih =>
    rcases exists_step σ p with ⟨v, rfl⟩ | hstep
    · exact .done (hQ [] v (.refl _) trivial)
    · refine .step hstep fun l q hl hgives => ih q ⟨l, hl⟩ fun h v hrun hgives' => ?_
      have := hQ (l.toList ++ h) v (.head hl hrun) (Session.gives_append.2 ⟨hgives, hgives'⟩)
      rwa [Session.after_append] at this

theorem Settles.of_run {p : Activity} {σ : Session} (h : p.Settles Q σ) {k : List Action}
    {v : Value} (hrun : Run p k (.done v)) (hgives : σ.Gives k) : Q v (σ.after k) := by
  generalize hq : Activity.done v = q at hrun
  induction hrun generalizing σ with
  | refl p =>
    subst hq
    cases h with
    | done hQ => exact hQ
    | step hstep _ =>
      obtain ⟨l, q, hstep, -⟩ := hstep
      cases hstep
  | @head p q r l k hstep _ ih =>
    rw [Session.gives_append] at hgives
    rw [Session.after_append]
    cases h with
    | done _ => cases hstep
    | step _ hnext => exact ih (hnext l q hstep hgives.1) hgives.2 hq

end Activity

end NetProbe
