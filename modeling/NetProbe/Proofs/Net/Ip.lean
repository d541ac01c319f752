import NetProbe.Net.Ip
set_option autoImplicit false

/-! # Addresses in order

`Ip.le` is a total order, so the addresses of a list come out in ascending order whatever order they
were in: `Ip.ascending_eq_of_perm`. They come out in strictly ascending order, each once, and no
others: `Ip.pairwise_ascending` and `Ip.mem_ascending`. -/

namespace NetProbe

namespace Ip

theorem le_total (a b : Ip) : le a b = true ∨ le b a = true := by
  cases a <;> cases b <;> simp only [le, decide_eq_true_eq]
  case v4.v4 a b => exact Nat.le_total a.value.toNat b.value.toNat
  case v6.v6 a b => exact Nat.le_total a.value.toNat b.value.toNat
  all_goals simp

theorem le_trans {a b c : Ip} (hab : le a b = true) (hbc : le b c = true) : le a c = true := by
  cases a <;> cases b <;> cases c <;> simp_all only [le, decide_eq_true_eq]
  case v4.v4.v4 a b c => exact Nat.le_trans hab hbc
  case v6.v6.v6 a b c => exact Nat.le_trans hab hbc
  all_goals contradiction

theorem le_antisymm {a b : Ip} (hab : le a b = true) (hba : le b a = true) : a = b := by
  cases a <;> cases b <;> simp only [le, decide_eq_true_eq] at hab hba
  case v4.v4 a b =>
    have hvalue : a.value = b.value := BitVec.eq_of_toNat_eq (Nat.le_antisymm hab hba)
    exact congrArg (fun x => v4 ⟨x⟩) hvalue
  case v6.v6 a b =>
    have hvalue : a.value = b.value := BitVec.eq_of_toNat_eq (Nat.le_antisymm hab hba)
    exact congrArg (fun x => v6 ⟨x⟩) hvalue
  all_goals contradiction

/-- Two addresses may be put in one after the other in either order. -/
theorem insert_comm (a b : Ip) (as : List Ip) :
    insert a (insert b as) = insert b (insert a as) := by
  induction as with
  | nil => grind [insert, le_total, le_antisymm, le_trans]
  | cons c as ih => grind [insert, le_total, le_antisymm, le_trans]

theorem ascending_eq_of_perm {as bs : List Ip} (h : as.Perm bs) : ascending as = ascending bs :=
  h.foldl_eq' (fun a _ b _ acc => insert_comm b a acc) []

/-! ## Strictly ascending addresses -/

/-- An address comes before another one: version four before version six, and the lower number
    first within a version. -/
inductive Before : Ip → Ip → Prop
  | v4 {a b : Ipv4} : a.value.toNat < b.value.toNat → Before (.v4 a) (.v4 b)
  | versions (a : Ipv4) (b : Ipv6) : Before (.v4 a) (.v6 b)
  | v6 {a b : Ipv6} : a.value.toNat < b.value.toNat → Before (.v6 a) (.v6 b)

variable {a b c : Ip} {as : List Ip}

theorem before_of_le (h : le a b = true) (hne : a ≠ b) : Before a b := by
  have hba : le b a ≠ true := fun hba => hne (le_antisymm h hba)
  cases a <;> cases b <;> simp only [le, ne_eq, decide_eq_true_eq] at h hba
  case v4.v4 a b => exact .v4 (Nat.lt_of_not_le hba)
  case v4.v6 a b => exact .versions a b
  case v6.v4 a b => cases h
  case v6.v6 a b => exact .v6 (Nat.lt_of_not_le hba)

theorem Before.trans (hab : Before a b) (hbc : Before b c) : Before a c := by
  cases hab with
  | v4 hab =>
    cases hbc with
    | v4 hbc => exact .v4 (Nat.lt_trans hab hbc)
    | versions b c => exact .versions _ c
  | versions a b =>
    cases hbc with
    | v6 _ => exact .versions a _
  | v6 hab =>
    cases hbc with
    | v6 hbc => exact .v6 (Nat.lt_trans hab hbc)

theorem Before.ne (h : Before a b) : a ≠ b := by
  rintro rfl
  cases h with
  | v4 h => exact Nat.lt_irrefl _ h
  | v6 h => exact Nat.lt_irrefl _ h

theorem mem_insert : b ∈ insert a as ↔ b = a ∨ b ∈ as := by
  induction as with
  | nil => simp [insert]
  | cons c as ih =>
    rw [insert]
    split
    · next h =>
      subst h
      simp
    · split
      · simp
      · rw [List.mem_cons, ih, List.mem_cons]
        exact or_left_comm

theorem pairwise_insert (h : as.Pairwise Before) : (insert a as).Pairwise Before := by
  induction as with
  | nil => exact List.pairwise_singleton _ _
  | cons c as ih =>
    obtain ⟨hc, has⟩ := List.pairwise_cons.1 h
    rw [insert]
    split
    · exact h
    · next hne =>
      split
      · next hle =>
        have hac : Before a c := before_of_le hle hne
        refine List.pairwise_cons.2 ⟨fun b hb => ?_, h⟩
        rcases List.mem_cons.1 hb with rfl | hb
        · exact hac
        · exact hac.trans (hc b hb)
      · next hle =>
        have hca : Before c a :=
          before_of_le ((le_total c a).resolve_right hle) (Ne.symm hne)
        refine List.pairwise_cons.2 ⟨fun b hb => ?_, ih has⟩
        rcases mem_insert.1 hb with rfl | hb
        · exact hca
        · exact hc b hb

theorem mem_foldl_insert {acc : List Ip} :
    b ∈ as.foldl (fun acc a => insert a acc) acc ↔ b ∈ as ∨ b ∈ acc := by
  induction as generalizing acc with
  | nil => simp
  | cons a as ih =>
    rw [List.foldl_cons, ih, mem_insert, List.mem_cons]
    exact or_left_comm.trans or_assoc.symm

/-- No address is lost, and none comes from elsewhere. -/
theorem mem_ascending : b ∈ ascending as ↔ b ∈ as := by
  rw [ascending, mem_foldl_insert]
  simp

theorem pairwise_ascending (as : List Ip) : (ascending as).Pairwise Before := by
  have hfold : ∀ acc : List Ip, acc.Pairwise Before →
      (as.foldl (fun acc a => insert a acc) acc).Pairwise Before := by
    induction as with
    | nil => exact fun _ h => h
    | cons a as ih => exact fun acc h => ih (insert a acc) (pairwise_insert h)
  exact hfold [] .nil

theorem nodup_ascending (as : List Ip) : (ascending as).Nodup :=
  (pairwise_ascending as).imp Before.ne

end Ip

end NetProbe
