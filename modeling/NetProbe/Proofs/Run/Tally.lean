import Mathlib.Algebra.Order.BigOperators.Group.List
import Mathlib.Data.Multiset.OrderedMonoid
import NetProbe.Proofs.Run.Deeds
set_option autoImplicit false

/-! # Tallies

What deeds add up to, part by part: numbers, or multisets of traces and records. A `Tally` counts
deeds in any order (`Tally.of_perm`). The records of a report are tallies, of everything that was
saved (`Observations.Additive.tally`). -/

namespace NetProbe

variable {M : Type} [AddCommMonoid M]

/-- Whether a function of deeds adds them up. -/
structure Tally (F : List Deed → M) : Prop where
  nil : F [] = 0
  append : ∀ ds es, F (ds ++ es) = F ds + F es

namespace Tally

variable {F : List Deed → M}

theorem of_perm (hF : Tally F) {ds es : List Deed} (h : ds.Perm es) : F ds = F es := by
  have hcons (d : Deed) (ds : List Deed) : F (d :: ds) = F [d] + F ds := hF.append [d] ds
  induction h with
  | nil => rfl
  | @cons d ds es _ ih => rw [hcons d ds, hcons d es, ih]
  | swap d e ds => rw [hcons e (d :: ds), hcons d ds, hcons d (e :: ds), hcons e ds, add_left_comm]
  | trans _ _ ih ih' => exact ih.trans ih'

theorem flatMap (hF : Tally F) {α : Type} (f : α → List Deed) (as : List α) :
    F (as.flatMap f) = (as.map fun a => F (f a)).sum := by
  induction as with
  | nil => exact hF.nil
  | cons a as ih => rw [List.flatMap_cons, hF.append, ih, List.map_cons, List.sum_cons]

/-- What deeds of one kind have to do with, in any order. -/
theorem ofFilterMap {α : Type} (g : Deed → Option α) :
    Tally fun ds => (↑(ds.filterMap g) : Multiset α) where
  nil := rfl
  append ds es := by rw [List.filterMap_append, ← Multiset.coe_add]

end Tally

theorem tally_slotsMade : Tally fun ds => (slotsMade ds).length where
  nil := rfl
  append ds es := by simp [slotsMade]

/-! ## Records -/

/-- The records that a history saves. -/
def recorded (h : List Action) : Observations :=
  Observations.reduce (saves (deeds h))

namespace Observations

section Fields

variable (a b : Observations)

@[simp] theorem events_append : (a ++ b).events = a.events ++ b.events := rfl
@[simp] theorem lookups_append : (a ++ b).lookups = a.lookups ++ b.lookups := rfl
@[simp] theorem requests_append : (a ++ b).requests = a.requests ++ b.requests := rfl
@[simp] theorem connects_append : (a ++ b).connects = a.connects ++ b.connects := rfl
@[simp] theorem tlsHandshakes_append :
    (a ++ b).tlsHandshakes = a.tlsHandshakes ++ b.tlsHandshakes := rfl
@[simp] theorem quicHandshakes_append :
    (a ++ b).quicHandshakes = a.quicHandshakes ++ b.quicHandshakes := rfl

end Fields

/-- Whether a function adds groups up, kind by kind. -/
structure Additive (f : Observations → M) : Prop where
  empty : f {} = 0
  append : ∀ a b : Observations, f (a ++ b) = f a + f b

namespace Additive

variable {f g : Observations → M}

theorem add (hf : Additive f) (hg : Additive g) : Additive fun o => f o + g o where
  empty := by rw [hf.empty, hg.empty, add_zero]
  append a b := by rw [hf.append, hg.append, add_add_add_comm]

/-- Records of one kind, in any order. -/
theorem ofList {α : Type} {f : Observations → List α} (hempty : f {} = [])
    (happend : ∀ a b : Observations, f (a ++ b) = f a ++ f b) :
    Additive fun o => (↑(f o) : Multiset α) where
  empty := by rw [hempty]; rfl
  append a b := by rw [happend, ← Multiset.coe_add]

theorem foldl (hf : Additive f) (a : Observations) (groups : List Observations) :
    f (groups.foldl Observations.append a) = f a + (groups.map f).sum := by
  induction groups generalizing a with
  | nil => exact (add_zero _).symm
  | cons o groups ih =>
    rw [List.map_cons, List.sum_cons, ← add_assoc, ← hf.append a o]
    exact ih (a ++ o)

theorem reduce (hf : Additive f) (groups : List Observations) :
    f (reduce groups) = (groups.map f).sum := by
  rw [Observations.reduce, hf.foldl, hf.empty, zero_add]

/-- The records that deeds save. -/
theorem tally (hf : Additive f) : Tally fun ds => f (Observations.reduce (saves ds)) where
  nil := hf.empty
  append ds es := by rw [saves_append, hf.reduce, List.map_append, List.sum_append, ← hf.reduce,
    ← hf.reduce]

end Additive

end Observations

end NetProbe
