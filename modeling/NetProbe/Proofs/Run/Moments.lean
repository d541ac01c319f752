import Mathlib.Data.List.Basic
import NetProbe.Proofs.Run.Step
import NetProbe.Run.Schedule
set_option autoImplicit false

/-! # Histories with moments

In surroundings, each effect of an activity is performed at a moment, and they tell its answer.
`Surroundings.Tells` says which histories they tell, starting from a world, with time passing
between the effects, and `Surroundings.Drives` which runs of an activity these are.

The moments of a history follow each other, and each effect is answered as the surroundings do at
its moment (`Tells.chronicle`); the calls of the session are answered by the session
(`Tells.gives`). -/

namespace NetProbe

/-- An action and the moment of its effect. -/
structure Occurrence where
  time : Time
  action : Action

/-- The actions of a history. -/
def actions (h : List Occurrence) : List Action := h.map Occurrence.action

/-- Whether the occurrences follow each other in time, from a moment on. -/
def Chronological : Time → List Occurrence → Prop
  | _, [] => True
  | t, o :: h => t ≤ o.time ∧ Chronological o.time h

theorem Chronological.mono {t t' : Time} {h : List Occurrence} (hh : Chronological t' h)
    (ht : t ≤ t') : Chronological t h := by
  cases h with
  | nil => exact trivial
  | cons o h => exact ⟨Nat.le_trans ht hh.1, hh.2⟩

theorem Chronological.le {t : Time} {h : List Occurrence} (hh : Chronological t h) :
    ∀ o ∈ h, t ≤ o.time := by
  induction h generalizing t with
  | nil => exact fun o ho => absurd ho List.not_mem_nil
  | cons first h ih =>
    intro o ho
    rcases List.mem_cons.1 ho with rfl | ho
    · exact hh.1
    · exact Nat.le_trans hh.1 (ih hh.2 o ho)

/-- Actions that all happen at the same moment. -/
def occurringAt (t : Time) (h : List Action) : List Occurrence :=
  h.map (Occurrence.mk t)

@[simp] theorem actions_occurringAt (t : Time) (h : List Action) :
    actions (occurringAt t h) = h := by
  rw [actions, occurringAt, List.map_map]
  exact List.map_id h

theorem chronological_occurringAt (t : Time) (h : List Action) :
    Chronological t (occurringAt t h) := by
  induction h with
  | nil => exact trivial
  | cons a h ih => exact ⟨Nat.le_refl t, ih⟩

/-- Whether a reply brings this answer, at once or later. -/
def Reply.Brings {α : Type} : Reply α → α → Prop
  | .now a, b | .later _ _ a, b => a = b
  | .never, _ => False

/-- What a branch of a pool does, the pool does. -/
theorem Activity.Run.branch {p q : Activity} {h : List Action} (hrun : Activity.Run p h q)
    (width : Nat) (before after waiting : List Activity) (finished : List Value)
    (next : List Value → Activity) :
    Activity.Run (.pool width (before ++ p :: after) waiting finished next) h
      (.pool width (before ++ q :: after) waiting finished next) := by
  induction hrun with
  | refl p => exact .refl _
  | head hstep _ ih => exact .head (.branch width before after waiting finished next hstep) ih

/-- What is done first. -/
theorem Activity.Run.of_perform {e : Effect} {next : e.Answer → Activity} {b : Action}
    {h : List Action} {q : Activity} (hrun : Activity.Run (.perform e next) (b :: h) q) :
    ∃ a, b = ⟨e, a⟩ ∧ Activity.Run (next a) h q := by
  generalize hk : b :: h = k at hrun
  cases hrun with
  | refl => cases hk
  | head hstep hrest =>
    cases hstep with
    | perform e next a =>
      obtain ⟨rfl, rfl⟩ := List.cons.inj hk
      exact ⟨a, rfl, hrest⟩

namespace Surroundings

variable {s : Surroundings} {w w' w'' : World} {e : Effect} {h k : List Occurrence}

/-! ## One effect -/

theorem world_attempt (s : Surroundings) (c : Context) (a : Attempt) (w : World) :
    (s.perform (.attempt c a) w).2 = w.started 1 := by
  rw [perform]
  split <;> rfl

theorem world_attemptBoth (s : Surroundings) (c : Context) (a b : Attempt) (w : World) :
    (s.perform (.attemptBoth c a b) w).2 = w.started 2 := by
  rw [perform]
  split <;> rfl

/-- Performing an effect takes no time. -/
theorem now_perform (s : Surroundings) (e : Effect) (w : World) :
    (s.perform e w).2.now = w.now := by
  cases e with
  | attempt c a => rw [world_attempt]; rfl
  | attemptBoth c a b => rw [world_attemptBoth]; rfl
  | _ => rfl

/-- What an effect is answered and what becomes of the session agree. -/
theorem fits_of_brings {a : e.Answer} (ha : (s.perform e w).1.Brings a) :
    Action.Fits w.session ⟨e, a⟩ ∧
      Action.after w.session ⟨e, a⟩ = (s.perform e w).2.session := by
  cases e with
  | session c => exact ⟨ha, rfl⟩
  | now => exact ⟨trivial, rfl⟩
  | randomWord => exact ⟨trivial, rfl⟩
  | attempt c a => exact ⟨trivial, by rw [world_attempt]; rfl⟩
  | attemptBoth c a b => exact ⟨trivial, by rw [world_attemptBoth]; rfl⟩

/-- Nothing becomes of the session in an effect that is never answered. -/
theorem session_of_never (he : (s.perform e w).1 = .never) :
    (s.perform e w).2.session = w.session := by
  cases e with
  | session c => cases he
  | attempt c a => rw [world_attempt]; rfl
  | attemptBoth c a b => rw [world_attemptBoth]; rfl
  | _ => rfl

/-! ## Histories -/

/-- What surroundings tell on the way from one world to another one. -/
inductive Tells (s : Surroundings) : World → List Occurrence → World → Prop
  | nil (w : World) : Tells s w [] w
  /-- Time passes. -/
  | wait {w w' : World} {h : List Occurrence} {time : Time} (later : w.now ≤ time)
    (rest : Tells s { w with now := time } h w') : Tells s w h w'
  /-- An effect is performed. -/
  | perform {w w' : World} {e : Effect} {a : e.Answer} {h : List Occurrence}
    (brings : (s.perform e w).1.Brings a) (rest : Tells s (s.perform e w).2 h w') :
    Tells s w (⟨w.now, e, a⟩ :: h) w'
  /-- An effect is performed that is never answered. -/
  | lose {w w' : World} {e : Effect} {h : List Occurrence} (never : (s.perform e w).1 = .never)
    (rest : Tells s (s.perform e w).2 h w') : Tells s w h w'

/-- Whether an occurrence is one in surroundings: they answer its effect so at its moment. -/
def Answers (s : Surroundings) (o : Occurrence) : Prop :=
  ∃ w : World, w.now = o.time ∧ (s.perform o.action.effect w).1.Brings o.action.answer

namespace Tells

theorem trans (hh : s.Tells w h w') (hk : s.Tells w' k w'') : s.Tells w (h ++ k) w'' := by
  induction hh with
  | nil w => exact hk
  | wait later _ ih => exact .wait later (ih hk)
  | perform brings _ ih => exact .perform brings (ih hk)
  | lose never _ ih => exact .lose never (ih hk)

theorem gives (hh : s.Tells w h w') :
    w.session.Gives (actions h) ∧ w.session.after (actions h) = w'.session := by
  induction hh with
  | nil w => exact ⟨trivial, rfl⟩
  | wait later _ ih => exact ih
  | @perform w w' e a h brings _ ih =>
    obtain ⟨hfits, hafter⟩ := fits_of_brings brings
    rw [← hafter] at ih
    exact ⟨⟨hfits, ih.1⟩, ih.2⟩
  | lose never _ ih =>
    rw [session_of_never never] at ih
    exact ih

/-- Moments follow each other, and effects are answered at theirs. -/
theorem chronicle (hh : s.Tells w h w') :
    Chronological w.now h ∧ ∀ o ∈ h, s.Answers o := by
  induction hh with
  | nil w => exact ⟨trivial, fun o ho => absurd ho List.not_mem_nil⟩
  | wait later _ ih => exact ⟨ih.1.mono later, ih.2⟩
  | @perform w w' e a h brings _ ih =>
    rw [now_perform] at ih
    refine ⟨⟨Nat.le_refl _, ih.1⟩, fun o ho => ?_⟩
    rcases List.mem_cons.1 ho with rfl | ho
    · exact ⟨w, rfl, brings⟩
    · exact ih.2 o ho
  | lose never _ ih =>
    rw [now_perform] at ih
    exact ih

end Tells

/-! ## Runs -/

/-- The second activity comes after the first one in these surroundings, which take the first world
    to the second one. -/
def Drives (s : Surroundings) (p : Activity) (w : World) (q : Activity) (w' : World) : Prop :=
  ∃ h, Activity.Run p (actions h) q ∧ s.Tells w h w'

namespace Drives

variable {p q r : Activity}

theorem refl (p : Activity) (w : World) : s.Drives p w p w :=
  ⟨[], .refl p, .nil w⟩

theorem trans (hpq : s.Drives p w q w') (hqr : s.Drives q w' r w'') : s.Drives p w r w'' := by
  obtain ⟨h, hrun, htells⟩ := hpq
  obtain ⟨k, hrun', htells'⟩ := hqr
  refine ⟨h ++ k, ?_, htells.trans htells'⟩
  rw [actions, List.map_append]
  exact hrun.trans hrun'

/-- A step without an effect. -/
theorem of_step (h : Activity.Step p none q) (w : World) : s.Drives p w q w :=
  ⟨[], h.run, .nil w⟩

/-- An effect that is answered. -/
theorem of_brings {next : e.Answer → Activity} {a : e.Answer}
    (ha : (s.perform e w).1.Brings a) :
    s.Drives (.perform e next) w (next a) (s.perform e w).2 :=
  ⟨[⟨w.now, e, a⟩], (Activity.Step.perform e next a).run, .perform ha (.nil _)⟩

/-- An effect that is never answered. -/
theorem of_never {next : e.Answer → Activity} (he : (s.perform e w).1 = .never) :
    s.Drives (.perform e next) w (.perform e next) (s.perform e w).2 :=
  ⟨[], .refl _, .lose he (.nil _)⟩

/-- Time passes. -/
theorem wait (p : Activity) {time : Time} (h : w.now ≤ time) :
    s.Drives p w p { w with now := time } :=
  ⟨[], .refl p, .wait h (.nil _)⟩

theorem branch (h : s.Drives p w q w') (width : Nat) (before after waiting : List Activity)
    (finished : List Value) (next : List Value → Activity) :
    s.Drives (.pool width (before ++ p :: after) waiting finished next) w
      (.pool width (before ++ q :: after) waiting finished next) w' := by
  obtain ⟨h, hrun, htells⟩ := h
  exact ⟨h, hrun.branch width before after waiting finished next, htells⟩

end Drives

end Surroundings

end NetProbe
