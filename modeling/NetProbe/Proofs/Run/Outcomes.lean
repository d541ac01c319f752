import NetProbe.Proofs.Run.Termination
set_option autoImplicit false

/-! # What activities come to

`Yields Q` says of the tree of an activity that every value at its end is of some kind, whatever is
answered to its effects and whatever the branches of its pools come to. Steps keep that, so all runs
end with such a value (`Yields.settles`); and what follows the activity matters for such values
only (`bind_congr`). -/

namespace NetProbe

/-! ## Scripts -/

namespace Script

variable {α β : Type} {P : α → Prop} {R : β → Prop}

/-- Every result of the script is of this kind. -/
def Returns (P : α → Prop) : Script α → Prop
  | done a => P a
  | perform _ next => ∀ a, (next a).Returns P

theorem Returns.bind {x : Script α} {f : α → Script β} (hx : x.Returns P)
    (hf : ∀ a, P a → (f a).Returns R) : (x >>= f).Returns R := by
  induction x with
  | done a => exact hf a hx
  | perform e next ih => exact fun answer => ih answer (hx answer)

theorem returns_true (x : Script α) : x.Returns fun _ => True := by
  induction x with
  | done a => trivial
  | perform e next ih => exact ih

theorem Returns.imp {Q : α → Prop} {x : Script α} (hx : x.Returns P) (h : ∀ a, P a → Q a) :
    x.Returns Q := by
  induction x with
  | done a => exact h a hx
  | perform e next ih => exact fun answer => ih answer (hx answer)

/-- A script whose results are of this kind whatever was before. -/
theorem returns_bind {x : Script α} {f : α → Script β} (hf : ∀ a, (f a).Returns R) :
    (x >>= f).Returns R :=
  x.returns_true.bind fun a _ => hf a

end Script

/-! ## Activities -/

namespace Activity

variable {Q R : Value → Prop}

/-- Every value that the activity comes to is of this kind. -/
def Yields (Q : Value → Prop) : Activity → Prop
  | done v => Q v
  | perform _ next => ∀ a, (next a).Yields Q
  | pool _ _ _ _ next => ∀ vs, (next vs).Yields Q

theorem Yields.bind {f : Value → Activity} (hf : ∀ v, Q v → (f v).Yields R) :
    ∀ {p : Activity}, p.Yields Q → (p.bind f).Yields R
  | .done v, h => hf v h
  | .perform _ _, h => fun a => Yields.bind hf (h a)
  | .pool _ _ _ _ _, h => fun vs => Yields.bind hf (h vs)

theorem Yields.imp (h : ∀ v, Q v → R v) : ∀ {p : Activity}, p.Yields Q → p.Yields R
  | .done v, hp => h v hp
  | .perform _ _, hp => fun a => Yields.imp h (hp a)
  | .pool _ _ _ _ _, hp => fun vs => Yields.imp h (hp vs)

/-- What follows an activity matters for the values only that the activity comes to. -/
theorem bind_congr {f g : Value → Activity} (hfg : ∀ v, Q v → f v = g v) :
    ∀ {p : Activity}, p.Yields Q → p.bind f = p.bind g
  | .done v, h => hfg v h
  | .perform _ _, h => by
    rw [Activity.bind, Activity.bind]
    congr 1
    funext a
    exact bind_congr hfg (h a)
  | .pool _ _ _ _ _, h => by
    rw [Activity.bind, Activity.bind]
    congr 1
    funext vs
    exact bind_congr hfg (h vs)

theorem Yields.step {p q : Activity} {l : Option Action} (h : p.Yields Q) (hstep : Step p l q) :
    q.Yields Q := by
  cases hstep with
  | perform e next a => exact h a
  | branch _ _ _ _ _ _ _ => exact h
  | start _ _ _ _ _ _ _ => exact h
  | finish _ _ _ _ _ _ _ => exact h
  | gather _ finished _ => exact h finished

theorem Yields.run {p q : Activity} {h : List Action} (hp : p.Yields Q) (hrun : Run p h q) :
    q.Yields Q := by
  induction hrun with
  | refl p => exact hp
  | head hstep _ ih => exact ih (hp.step hstep)

/-- However the activity goes on, it ends, with a value of this kind. -/
theorem Yields.settles {p : Activity} (hp : p.Yields Q) (σ : Session) :
    p.Settles (fun v _ => Q v) σ :=
  settles_of_run fun _ _ hrun _ => hp.run hrun

end Activity

theorem Script.Returns.yields {Q : Value → Prop} {x : Script Value} (hx : x.Returns Q) :
    x.activity.Yields Q := by
  induction x with
  | done v => exact hx
  | perform e next ih => exact fun a => ih a (hx a)

end NetProbe
