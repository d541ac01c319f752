import NetProbe.Proofs.Pairs
import NetProbe.Proofs.Run.Termination
set_option autoImplicit false

/-! # Histories of activities

A run that came to an end, taken apart along the activity: `Traces p v h` says that the activity may
come to a value with this history of effects, where the history of a pool is an interleaving of
those of its branches, whose values arrive in any order. Every run is one of these
(`traces_of_run`): by induction on the run from its end, one step at a time. -/

namespace NetProbe

/-! ## Interleavings -/

/-- Two lists take turns, each in its order. -/
inductive Shuffle {α : Type} : List α → List α → List α → Prop
  | nil : Shuffle [] [] []
  | left {a : α} {h k l : List α} : Shuffle h k l → Shuffle (a :: h) k (a :: l)
  | right {a : α} {h k l : List α} : Shuffle h k l → Shuffle h (a :: k) (a :: l)

/-- Any number of lists take turns, each in its order. -/
inductive Interleaves {α : Type} : List (List α) → List α → Prop
  | nil : Interleaves [] []
  | cons {hs : List (List α)} {h k l : List α} :
      Interleaves hs k → Shuffle h k l → Interleaves (h :: hs) l

section Interleavings

variable {α : Type} {hs : List (List α)} {h k l : List α}

theorem Shuffle.nil_left : ∀ k : List α, Shuffle [] k k
  | [] => .nil
  | _ :: k => .right (nil_left k)

theorem Shuffle.perm (hl : Shuffle h k l) : l.Perm (h ++ k) := by
  induction hl with
  | nil => exact .refl []
  | left _ ih => exact ih.cons _
  | right _ ih => exact (ih.cons _).trans List.perm_middle.symm

/-- No member is lost or made up. -/
theorem Interleaves.perm (hk : Interleaves hs k) : k.Perm hs.flatten := by
  induction hk with
  | nil => exact .refl []
  | cons _ hl ih => exact hl.perm.trans (ih.append_left _)

/-- What a function makes of lists that take turns takes turns. -/
theorem Shuffle.filterMap {β : Type} (f : α → Option β) (hl : Shuffle h k l) :
    Shuffle (h.filterMap f) (k.filterMap f) (l.filterMap f) := by
  induction hl with
  | nil => exact .nil
  | @left a _ _ _ _ ih =>
    rw [List.filterMap_cons, List.filterMap_cons]
    cases f a with
    | none => exact ih
    | some b => exact ih.left
  | @right a _ _ _ _ ih =>
    rw [List.filterMap_cons, List.filterMap_cons]
    cases f a with
    | none => exact ih
    | some b => exact ih.right

theorem Interleaves.filterMap {β : Type} (f : α → Option β) (hk : Interleaves hs k) :
    Interleaves (hs.map (·.filterMap f)) (k.filterMap f) := by
  induction hk with
  | nil => exact .nil
  | cons _ hl ih => exact .cons ih (hl.filterMap f)

/-- A list with nothing in it takes no turns. -/
theorem Interleaves.insert_nil {before after : List (List α)}
    (hk : Interleaves (before ++ after) k) : Interleaves (before ++ [] :: after) k := by
  induction before generalizing k with
  | nil => exact .cons hk (.nil_left k)
  | cons b before ih =>
    cases hk with
    | cons hk hl => exact .cons (ih hk) hl

/-- Any list may have the first turn. -/
theorem Interleaves.turn {before after : List (List α)} {a : α}
    (hk : Interleaves (before ++ h :: after) k) :
    Interleaves (before ++ (a :: h) :: after) (a :: k) := by
  induction before generalizing k with
  | nil =>
    cases hk with
    | cons hk hl => exact .cons hk hl.left
  | cons b before ih =>
    cases hk with
    | cons hk hl => exact .cons (ih hk) hl.right

end Interleavings

namespace Activity

/-! ## Traces -/

/-- What the activity may come to, and with which effects on the way. -/
inductive Traces : Activity → Value → List Action → Prop
  | done (v : Value) : Traces (.done v) v []
  | perform {e : Effect} {next : e.Answer → Activity} {a : e.Answer} {v : Value}
      {h : List Action} : Traces (next a) v h → Traces (.perform e next) v (⟨e, a⟩ :: h)
  /-- The branches come to values and histories, one by one. -/
  | pool {width : Nat} {running waiting : List Activity} {finished : List Value}
      {next : List Value → Activity} {ends : List (Value × List Action)} {vs : List Value}
      {k : List Action} {v : Value} {h : List Action} :
      List.Forall₂ (fun p e => Traces p e.1 e.2) (running ++ waiting) ends →
      Interleaves (ends.map Prod.snd) k → vs.Perm (ends.map Prod.fst) →
      Traces (next (finished ++ vs)) v h →
      Traces (.pool width running waiting finished next) v (k ++ h)

theorem Traces.of_done {v w : Value} {h : List Action} (hp : Traces (.done v) w h) :
    w = v ∧ h = [] := by
  cases hp with
  | done _ => exact ⟨rfl, rfl⟩

/-- What comes before a trace is part of the history. -/
theorem Traces.of_step {p q : Activity} {l : Option Action} {v : Value} {h : List Action}
    (hq : Traces q v h) (hstep : Step p l q) : Traces p v (l.toList ++ h) := by
  induction hstep generalizing v h with
  | perform e next a => exact .perform hq
  | @branch p q l width before after waiting finished next _ ih =>
    cases hq with
    | pool hends hk hvs hnext =>
      rw [List.append_assoc, List.cons_append] at hends
      obtain ⟨us, rest, hbefore, hrest, rfl⟩ := exists_append_of_forall₂ hends
      cases hrest with
      | @cons _ e _ es he hes =>
        have hends' : List.Forall₂ (fun p (e : Value × List Action) => Traces p e.1 e.2)
            ((before ++ p :: after) ++ waiting) (us ++ (e.1, l.toList ++ e.2) :: es) := by
          rw [List.append_assoc, List.cons_append]
          exact List.rel_append hbefore (.cons (ih he) hes)
        rw [List.map_append, List.map_cons] at hk hvs
        rw [← List.append_assoc]
        refine .pool hends' ?_ ?_ hnext
        · rw [List.map_append, List.map_cons]
          cases l with
          | none => exact hk
          | some a => exact hk.turn
        · rw [List.map_append, List.map_cons]
          exact hvs
  | start width running p waiting finished next _ =>
    cases hq with
    | pool hends hk hvs hnext =>
      rw [List.append_assoc] at hends
      rw [Option.toList_none, List.nil_append]
      exact .pool hends hk hvs hnext
  | finish width before w after waiting finished next =>
    cases hq with
    | @pool _ _ _ _ _ ends vs k _ h hends hk hvs hnext =>
      rw [List.append_assoc] at hends
      obtain ⟨us, es, hbefore, hrest, rfl⟩ := exists_append_of_forall₂ hends
      -- The branch that has finished has nothing more to do before its value arrives.
      have hends' : List.Forall₂ (fun p (e : Value × List Action) => Traces p e.1 e.2)
          ((before ++ .done w :: after) ++ waiting) (us ++ (w, []) :: es) := by
        rw [List.append_assoc, List.cons_append]
        exact List.rel_append hbefore (.cons (.done w) hrest)
      rw [List.map_append] at hk hvs
      rw [List.append_assoc] at hnext
      rw [Option.toList_none, List.nil_append]
      refine .pool hends' ?_ ?_ hnext
      · rw [List.map_append, List.map_cons]
        exact hk.insert_nil
      · rw [List.map_append, List.map_cons]
        exact (hvs.cons w).trans List.perm_middle.symm
  | gather width finished next =>
    rw [← List.append_nil finished] at hq
    exact .pool (k := []) .nil .nil (.refl []) hq

theorem traces_of_run {p : Activity} {v : Value} {h : List Action} (hrun : Run p h (.done v)) :
    Traces p v h := by
  generalize hq : Activity.done v = q at hrun
  induction hrun with
  | refl p =>
    subst hq
    exact .done v
  | head hstep _ ih => exact (ih hq).of_step hstep

/-- Of one activity after the other, first the one comes to a value and then the other. -/
theorem Traces.of_bind : ∀ {p : Activity} {f : Value → Activity} {v : Value} {h : List Action},
    Traces (p.bind f) v h →
      ∃ u h₁ h₂, Traces p u h₁ ∧ Traces (f u) v h₂ ∧ h = h₁ ++ h₂
  | .done u, _, _, h, hp => ⟨u, [], h, .done u, hp, rfl⟩
  | .perform e next, _, _, _, hp => by
    rw [Activity.bind] at hp
    cases hp with
    | perform hnext =>
      obtain ⟨u, h₁, h₂, hu, hv, rfl⟩ := Traces.of_bind hnext
      exact ⟨u, _, h₂, .perform hu, hv, rfl⟩
  | .pool width running waiting finished next, _, _, _, hp => by
    rw [Activity.bind] at hp
    cases hp with
    | pool hends hk hvs hnext =>
      obtain ⟨u, h₁, h₂, hu, hv, rfl⟩ := Traces.of_bind hnext
      exact ⟨u, _, h₂, .pool hends hk hvs hu, hv, (List.append_assoc _ _ _).symm⟩

end Activity

end NetProbe
