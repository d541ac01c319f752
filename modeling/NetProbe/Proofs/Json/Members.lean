import Mathlib.Data.List.Nodup
import NetProbe.Json.Basic
set_option autoImplicit false

/-! # Members of objects by their keys

What stands under a key after a member was put into an object (`get?_insert`), and that the order of
members does not matter as long as no key is repeated (`get?_ofMembers`). -/

namespace NetProbe.Json

variable {k key : String} {v : Json} {members : List (String × Json)}

@[simp] theorem get?_nil : get? k (.object []) = none := rfl

theorem get?_cons (k key : String) (v : Json) (members : List (String × Json)) :
    get? k (.object ((key, v) :: members)) =
      if key = k then some v else get? k (.object members) := by
  simp only [get?, List.find?_cons]
  by_cases hkey : key = k
  · simp [hkey]
  · rw [if_neg hkey, beq_false_of_ne hkey]

theorem get?_eq_none_iff : get? k (.object members) = none ↔ k ∉ members.map Prod.fst := by
  induction members with
  | nil => simp
  | cons m members ih =>
    rw [get?_cons, List.map_cons, List.mem_cons, not_or]
    by_cases hkey : m.1 = k
    · simp [hkey]
    · rw [if_neg hkey, ih]
      simp [Ne.symm hkey]

/-- The member that was put in last is found, and it hides no other. -/
theorem get?_insert (k key : String) (v : Json) (members : List (String × Json)) :
    get? k (.object (insert key v members)) =
      if key = k then some v else get? k (.object members) := by
  induction members with
  | nil => rw [insert, get?_cons]
  | cons m members ih =>
    obtain ⟨key', w⟩ := m
    rw [insert]
    split
    · rw [get?_cons]
    split
    · next heq =>
      rw [get?_cons, get?_cons, ← heq]
      split <;> rfl
    · next hne =>
      rw [get?_cons, get?_cons, ih]
      by_cases hkey : key = k
      · rw [if_neg (fun h => hne (hkey.trans h.symm)), if_pos hkey, if_pos hkey]
      · rw [if_neg hkey, if_neg hkey]

theorem get?_foldl_insert {acc : List (String × Json)} (h : (members.map Prod.fst).Nodup) :
    get? k (.object (members.foldl (fun acc m => insert m.1 m.2 acc) acc)) =
      (get? k (.object members)).or (get? k (.object acc)) := by
  induction members generalizing acc with
  | nil => rfl
  | cons m members ih =>
    obtain ⟨hm, hmembers⟩ := List.nodup_cons.1 h
    rw [List.foldl_cons, ih hmembers, get?_insert, get?_cons]
    by_cases hkey : m.1 = k
    · rw [if_pos hkey, if_pos hkey, get?_eq_none_iff.2 (hkey ▸ hm)]
      rfl
    · rw [if_neg hkey, if_neg hkey]

/-- An object holds under every key what was written under it, if it was written once. -/
theorem get?_ofMembers (h : (members.map Prod.fst).Nodup) :
    get? k (ofMembers members) = get? k (.object members) := by
  rw [ofMembers, get?_foldl_insert h, get?_nil, Option.or_none]

end NetProbe.Json
