import Mathlib.Data.List.Forall2
set_option autoImplicit false

/-! # Lists that go in pairs

Where the members of two lists belong together one by one, each member has a partner, and lists in
two parts go with lists in two parts. -/

namespace NetProbe

variable {α β : Type} {R : α → β → Prop}

/-- Each member on the right has a partner on the left. -/
theorem exists_of_forall₂_of_mem {xs : List α} {ys : List β} (h : List.Forall₂ R xs ys) {y : β}
    (hy : y ∈ ys) : ∃ x ∈ xs, R x y := by
  induction h with
  | nil => cases hy
  | @cons a b as bs hab _ ih =>
    rcases List.mem_cons.1 hy with rfl | hy
    · exact ⟨a, List.mem_cons_self, hab⟩
    · obtain ⟨x, hx, hxy⟩ := ih hy
      exact ⟨x, List.mem_cons_of_mem a hx, hxy⟩

/-- The partners of a list in two parts. -/
theorem exists_append_of_forall₂ {xs ys : List α} {zs : List β}
    (h : List.Forall₂ R (xs ++ ys) zs) :
    ∃ us vs, List.Forall₂ R xs us ∧ List.Forall₂ R ys vs ∧ zs = us ++ vs := by
  induction xs generalizing zs with
  | nil => exact ⟨[], zs, .nil, h, rfl⟩
  | cons x xs ih =>
    cases h with
    | cons hx hrest =>
      obtain ⟨us, vs, hus, hvs, rfl⟩ := ih hrest
      exact ⟨_ :: us, vs, .cons hx hus, hvs, rfl⟩

end NetProbe
