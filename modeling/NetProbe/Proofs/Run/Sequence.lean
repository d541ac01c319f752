import Mathlib.Data.List.Basic
set_option autoImplicit false

/-! # Events one after the other

A system is given by what may happen in one step. What may happen in any number of steps is a
`Sequence`. What every step keeps, a sequence keeps (`Sequence.holds`); what every step keeps except
for some events holds until one of them happens (`Sequence.holds_unless`). -/

namespace NetProbe

variable {σ ε : Type} {step : σ → ε → σ → Prop}

/-- What may happen one after the other, from one state to another one. -/
inductive Sequence (step : σ → ε → σ → Prop) : σ → List ε → σ → Prop
  | nil (s : σ) : Sequence step s [] s
  | cons {s t u : σ} {e : ε} {h : List ε} (first : step s e t) (rest : Sequence step t h u) :
    Sequence step s (e :: h) u

namespace Sequence

variable {s t u : σ} {e : ε} {h k : List ε}

theorem exists_of_append (hsteps : Sequence step s (h ++ k) u) :
    ∃ t, Sequence step s h t ∧ Sequence step t k u := by
  induction h generalizing s with
  | nil => exact ⟨s, .nil s, hsteps⟩
  | cons e h ih =>
    obtain _ | ⟨first, rest⟩ := hsteps
    obtain ⟨t, hh, hk⟩ := ih rest
    exact ⟨t, .cons first hh, hk⟩

/-- The states before and after something that happened. -/
theorem exists_step (hsteps : Sequence step s (h ++ e :: k) u) :
    ∃ t t', Sequence step s h t ∧ step t e t' ∧ Sequence step t' k u := by
  obtain ⟨t, hh, hrest⟩ := exists_of_append hsteps
  obtain _ | ⟨first, rest⟩ := hrest
  exact ⟨t, _, hh, first, rest⟩

/-- What every step keeps of a state and what happened up to it, a sequence keeps. -/
theorem holds_after {P : List ε → σ → Prop} (hsteps : Sequence step s h u)
    (hkeep : ∀ {k s e t}, step s e t → P k s → P (k ++ [e]) t) (hs : P k s) : P (k ++ h) u := by
  induction hsteps generalizing k with
  | nil =>
    rw [List.append_nil]
    exact hs
  | @cons s t u e h first _ ih =>
    have hrest := ih (hkeep first hs)
    rwa [List.append_assoc] at hrest

/-- What every step keeps, a sequence keeps. -/
theorem holds {P : σ → Prop} (hsteps : Sequence step s h u)
    (hkeep : ∀ {s e t}, step s e t → P s → P t) (hs : P s) : P u :=
  hsteps.holds_after (P := fun _ => P) (k := []) hkeep hs

/-- What every step keeps except for some events holds as long as none of these happens. -/
theorem holds_unless {P : σ → Prop} {Q : ε → Prop} (hsteps : Sequence step s h u)
    (hkeep : ∀ {s e t}, step s e t → P s → P t ∨ Q e) (hs : P s) : P u ∨ ∃ e ∈ h, Q e := by
  induction hsteps with
  | nil => exact .inl hs
  | @cons s t u e h first _ ih =>
    rcases hkeep first hs with ht | he
    · exact (ih ht).imp_right fun ⟨e', he', hQ⟩ => ⟨e', List.mem_cons_of_mem e he', hQ⟩
    · exact .inr ⟨e, List.mem_cons_self, he⟩

end Sequence

end NetProbe
