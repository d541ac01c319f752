import Mathlib.Data.List.Sort
import Mathlib.Order.Defs.Unbundled
import NetProbe.Proofs.Program.Flattening
import NetProbe.Proofs.Program.Typing
set_option autoImplicit false

/-! # Sums of kinds are sets

A sum is known by its members (`Kinds.ext_mem`): they are in ascending order of names, so two sums
with the same members are the same list. Each way to make a sum says which members it has, and the
laws of sums come down to laws of membership. The builder compares kinds without the control kinds;
it might as well compare them with the control kinds: `Kinds.main_eq_main_iff`. -/

namespace NetProbe

namespace Kind

theorem name_injective : Function.Injective name := fun _ _ h => congrArg mk h

theorem isControl_iff {k : Kind} : k.isControl = true ↔ k ∈ control :=
  List.contains_iff_mem

end Kind

namespace Kinds

variable {a b : Kinds} {k : Kind} {xs ys : List Kind}

/-! ## Members -/

theorem ext_mem (h : ∀ k, k ∈ a.members ↔ k ∈ b.members) : a = b := by
  -- The names are in strictly ascending order, so no order of the members but one is possible.
  let before (k l : Kind) : Prop := k.name < l.name
  have hirrefl : Std.Irrefl before := ⟨fun k => String.lt_irrefl k.name⟩
  have hantisymm : Std.Antisymm before :=
    ⟨fun k l hkl hlk => absurd (String.lt_trans hkl hlk) (String.lt_irrefl k.name)⟩
  have hmembers : a.members = b.members :=
    List.Pairwise.eq_of_mem_iff (r := before) a.ascending b.ascending h
  cases a
  cases b
  cases hmembers
  rfl

theorem ext_mem_iff : a = b ↔ ∀ k, k ∈ a.members ↔ k ∈ b.members :=
  ⟨fun h _ => h ▸ Iff.rfl, ext_mem⟩

@[simp] theorem mem_append : k ∈ (a.append xs).members ↔ k ∈ a.members ∨ k ∈ xs := by
  induction xs generalizing a with
  | nil => simp [append]
  | cons x xs ih =>
    have hcons : a.append (x :: xs) = (a.insert x).append xs := rfl
    have hinsert : k ∈ (a.insert x).members ↔ k = x ∨ k ∈ a.members := Kind.mem_insert
    rw [hcons, ih, hinsert, List.mem_cons, or_assoc]
    exact or_left_comm

@[simp] theorem mem_sum : k ∈ (sum xs).members ↔ k ∈ xs := by
  simp [sum, empty]

@[simp] theorem mem_complete : k ∈ a.complete.members ↔ k ∈ a.members ∨ k ∈ Kind.control :=
  mem_append

@[simp] theorem mem_main : k ∈ a.main.members ↔ k ∈ a.members ∧ k ∉ Kind.control := by
  simp [main, ← Kind.isControl_iff]

theorem canConvertTo_iff : a.canConvertTo b = true ↔ ∀ k ∈ a.members, k ∈ b.members := by
  simp [canConvertTo, contains]

/-! ## Sums -/

theorem sum_eq_sum_iff :
    sum xs = sum ys ↔ ∀ name, name ∈ xs.map Kind.name ↔ name ∈ ys.map Kind.name := by
  rw [ext_mem_iff]
  simp only [mem_sum]
  constructor
  · intro h name
    simp only [List.mem_map, h]
  · intro h k
    rw [← List.mem_map_of_injective Kind.name_injective, h,
      List.mem_map_of_injective Kind.name_injective]

theorem append_eq_sum : a.append xs = sum (a.members ++ xs) :=
  ext_mem fun k => by simp

/-! ## With and without the control kinds -/

theorem main_complete : a.complete.main = a.main :=
  ext_mem fun k => by simp [or_and_right]

theorem complete_main : a.main.complete = a.complete := by
  refine ext_mem fun k => ?_
  by_cases hk : k ∈ Kind.control <;> simp [hk]

theorem complete_complete : a.complete.complete = a.complete :=
  ext_mem fun k => by simp

theorem main_main : a.main.main = a.main :=
  ext_mem fun k => by simp

theorem main_eq_main_iff : a.main = b.main ↔ a.complete = b.complete := by
  constructor <;> intro h
  · rw [← complete_main, h, complete_main]
  · rw [← main_complete, h, main_complete]

/-! ## The order of sums -/

instance : IsPartialOrder Kinds fun a b => a.canConvertTo b = true where
  refl _ := canConvertTo_iff.2 fun _ => id
  trans _ _ _ hab hbc := canConvertTo_iff.2 fun k hk =>
    canConvertTo_iff.1 hbc k (canConvertTo_iff.1 hab k hk)
  antisymm _ _ hab hba := ext_mem fun k =>
    ⟨canConvertTo_iff.1 hab k, canConvertTo_iff.1 hba k⟩

theorem canConvertTo_iff_append : a.canConvertTo b = true ↔ a.append b.members = b := by
  rw [canConvertTo_iff, ext_mem_iff]
  simp only [mem_append, or_iff_right_iff_imp]

end Kinds

/-! ## What the builder compares -/

namespace Piece

variable {ps : List Piece}

theorem exists_ifExists_iff {p : Piece} :
    (∃ q, ifExists p = .ok q) ↔ p.input.main = p.output.main := by
  rw [ifExists]
  split <;> simp_all

theorem checkGroup_eq_ok_iff {context : String} {input output : Kinds} :
    checkGroup context input output ps = .ok () ↔
      ∀ p ∈ ps, p.input.main = input.main ∧ p.output.main = output.main := by
  refine ⟨forall_of_checkGroup, fun h => ?_⟩
  induction ps with
  | nil => rfl
  | cons p ps ih =>
    obtain ⟨hp, hps⟩ := List.forall_mem_cons.1 h
    rw [checkGroup, if_neg (not_not.2 hp.1), if_neg (not_not.2 hp.2), ih hps]

end Piece

/-- **Sums of kinds are sets.** A sum is the set of the names in it, listed in ascending order.
    Adding members makes the sum of all of them. Of two sums with and without the control kinds,
    each says the other, so it comes to the same whether the builder compares the ones or the
    others. The sums that can be converted to one another are ordered as sets are. -/
theorem Kinds.canonical (xs ys : List Kind) (a b : Kinds) :
    (sum xs = sum ys ↔ ∀ name, name ∈ xs.map Kind.name ↔ name ∈ ys.map Kind.name) ∧
    (∀ k, k ∈ (sum xs).members ↔ k ∈ xs) ∧ (a.members.map Kind.name).Pairwise (· < ·) ∧
    a.append xs = sum (a.members ++ xs) ∧
    (a.complete.main = a.main ∧ a.main.complete = a.complete) ∧
    (a.complete.complete = a.complete ∧ a.main.main = a.main) ∧
    (a.main = b.main ↔ a.complete = b.complete) ∧
    (∀ ps, Piece.checkSequence ps = .ok () ↔
      ps.IsChain fun p q => p.output.complete = q.input.complete) ∧
    (∀ p, (∃ q, Piece.ifExists p = .ok q) ↔ p.input.complete = p.output.complete) ∧
    (∀ context ps, Piece.checkGroup context a b ps = .ok () ↔
      ∀ p ∈ ps, p.input.complete = a.complete ∧ p.output.complete = b.complete) ∧
    IsPartialOrder Kinds (fun a b => a.canConvertTo b = true) ∧
    (a.canConvertTo b = true ↔ a.append b.members = b) := by
  refine ⟨sum_eq_sum_iff, fun _ => mem_sum, List.pairwise_map.2 a.ascending, append_eq_sum,
    ⟨main_complete, complete_main⟩, ⟨complete_complete, main_main⟩, main_eq_main_iff,
    fun ps => ?_, fun p => ?_, fun context ps => ?_, inferInstance, canConvertTo_iff_append⟩
  · have hfits : Piece.Fits = fun p q => p.output.complete = q.input.complete :=
      funext₂ fun p q => propext main_eq_main_iff
    rw [Piece.checkSequence_eq_ok_iff, hfits]
  · rw [Piece.exists_ifExists_iff, main_eq_main_iff]
  · simp only [Piece.checkGroup_eq_ok_iff, main_eq_main_iff]

/-- A name made at run time stands for the same kind as the built-in name, and a sum of control
    kinds only has nothing but them. -/
example : Kinds.sum [⟨"*Void"⟩, .error, .void] = Kinds.sum [.error, .void] ∧
    (Kinds.sum [.skip, .error]).main = .empty ∧ Kinds.empty.complete = Kinds.sum Kind.control := by
  decide +kernel

end NetProbe
