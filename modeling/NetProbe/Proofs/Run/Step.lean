import NetProbe.Run.Script
set_option autoImplicit false

/-! # Steps of activities

How an activity goes on when nobody says in which order: each step performs one effect, whatever its
answer is, or moves a branch of a pool on. A branch starts when there is room for it, its value is
put aside when it has finished, and what follows the pool starts when all branches have. A `Run` is
any number of steps, with the history of their effects; `Session.Gives` singles out the histories in
which a session answers its calls itself.

`exists_step` says that no activity gets stuck: it has finished, or there is a step in which the
session has its way. -/

namespace NetProbe

/-- An effect and what it is answered. -/
structure Action where
  effect : Effect
  answer : effect.Answer

namespace Activity

/-- One step of an activity, and the effect that it performs, if any. -/
inductive Step : Activity → Option Action → Activity → Prop
  | perform (e : Effect) (next : e.Answer → Activity) (a : e.Answer) :
      Step (.perform e next) (some ⟨e, a⟩) (next a)
  /-- A branch that is running goes on. -/
  | branch {p q : Activity} {l : Option Action} (width : Nat) (before after : List Activity)
      (waiting : List Activity) (finished : List Value) (next : List Value → Activity) :
      Step p l q →
      Step (.pool width (before ++ p :: after) waiting finished next) l
        (.pool width (before ++ q :: after) waiting finished next)
  /-- The next branch starts. -/
  | start (width : Nat) (running : List Activity) (p : Activity) (waiting : List Activity)
      (finished : List Value) (next : List Value → Activity) :
      running.length < max width 1 →
      Step (.pool width running (p :: waiting) finished next) none
        (.pool width (running ++ [p]) waiting finished next)
  /-- The value of a branch that has finished is put to the others. -/
  | finish (width : Nat) (before : List Activity) (v : Value) (after waiting : List Activity)
      (finished : List Value) (next : List Value → Activity) :
      Step (.pool width (before ++ .done v :: after) waiting finished next) none
        (.pool width (before ++ after) waiting (finished ++ [v]) next)
  /-- All branches have finished. -/
  | gather (width : Nat) (finished : List Value) (next : List Value → Activity) :
      Step (.pool width [] [] finished next) none (next finished)

/-- Any number of steps, and their effects in order. -/
inductive Run : Activity → List Action → Activity → Prop
  | refl (p : Activity) : Run p [] p
  | head {p q r : Activity} {l : Option Action} {h : List Action} :
      Step p l q → Run q h r → Run p (l.toList ++ h) r

theorem Step.run {p q : Activity} {l : Option Action} (h : Step p l q) : Run p l.toList q := by
  simpa using Run.head h (.refl q)

theorem Run.trans {p q r : Activity} {h k : List Action} (hpq : Run p h q) (hqr : Run q k r) :
    Run p (h ++ k) r := by
  induction hpq with
  | refl p => exact hqr
  | head hstep _ ih =>
    rw [List.append_assoc]
    exact .head hstep (ih hqr)

end Activity

/-! ## Sessions along a run -/

/-- What becomes of a session in an action: only its own calls change it. -/
def Action.after (σ : Session) : Action → Session
  | ⟨.session c, _⟩ => (c.run σ).2
  | _ => σ

/-- Whether a session answers its call like this; other effects are not its business. -/
def Action.Fits (σ : Session) : Action → Prop
  | ⟨.session c, a⟩ => (c.run σ).1 = a
  | _ => True

namespace Session

/-- What becomes of a session in a history. -/
def after (σ : Session) (h : List Action) : Session :=
  h.foldl Action.after σ

/-- Whether a session gives the answers in a history. -/
def Gives (σ : Session) : List Action → Prop
  | [] => True
  | a :: h => a.Fits σ ∧ Gives (a.after σ) h

variable {σ : Session} {h k : List Action}

@[simp] theorem after_nil : σ.after [] = σ := rfl

@[simp] theorem after_cons (a : Action) : σ.after (a :: h) = (a.after σ).after h := rfl

@[simp] theorem after_append : σ.after (h ++ k) = (σ.after h).after k := by
  rw [after, List.foldl_append]
  rfl

@[simp] theorem gives_nil : σ.Gives [] := trivial

theorem gives_cons {a : Action} : σ.Gives (a :: h) ↔ a.Fits σ ∧ (a.after σ).Gives h := Iff.rfl

theorem gives_append : σ.Gives (h ++ k) ↔ σ.Gives h ∧ (σ.after h).Gives k := by
  induction h generalizing σ with
  | nil => simp
  | cons a h ih =>
    rw [List.cons_append, gives_cons, gives_cons, ih, after_cons, and_assoc]

end Session

/-- Every effect has an answer that the session agrees with. -/
theorem Effect.exists_fits (e : Effect) (σ : Session) : ∃ a : e.Answer, Action.Fits σ ⟨e, a⟩ := by
  cases e with
  | session c => exact ⟨(c.run σ).1, rfl⟩
  | now => exact ⟨(0 : Nat), trivial⟩
  | randomWord => exact ⟨(0 : UInt16), trivial⟩
  | attempt c a => exact ⟨Except.error .cancelled, trivial⟩
  | attemptBoth c a b => exact ⟨(Except.error .cancelled, Except.error .cancelled), trivial⟩

namespace Activity

/-! ## Nothing gets stuck -/

/-- An activity has finished, or it can go on in a way that the session agrees with. -/
theorem exists_step (σ : Session) : ∀ p : Activity,
    (∃ v, p = .done v) ∨ ∃ l q, Step p l q ∧ σ.Gives l.toList
  | .done v => .inl ⟨v, rfl⟩
  | .perform e next => by
    obtain ⟨a, ha⟩ := e.exists_fits σ
    exact .inr ⟨_, _, .perform e next a, ha, trivial⟩
  | .pool width [] [] finished next => .inr ⟨_, _, .gather width finished next, trivial⟩
  | .pool width [] (p :: waiting) finished next => by
    have hroom : ([] : List Activity).length < max width 1 := by
      rw [List.length_nil]
      omega
    exact .inr ⟨_, _, .start width [] p waiting finished next hroom, trivial⟩
  | .pool width (p :: rest) waiting finished next => by
    rcases exists_step σ p with ⟨v, rfl⟩ | ⟨l, q, hstep, hgives⟩
    · exact .inr ⟨_, _, .finish width [] v rest waiting finished next, trivial⟩
    · exact .inr ⟨_, _, .branch width [] rest waiting finished next hstep, hgives⟩

end Activity

end NetProbe
