import Mathlib.Data.List.Nodup
import Mathlib.Logic.Relation
import NetProbe.Proofs.Run.Contexts
import NetProbe.Proofs.Run.Sequence
set_option autoImplicit false

/-! # Families of contexts

From one context without a deadline others are derived, from these again others, and any of them may
be cancelled in between (`Family.Step`). A context has only a lineage and a deadline; what these are
worth is told from what happened: along which derivations one comes from the root to a context
(`Path`), which contexts come from which (`Below`), and what the tokens show that are handed on from
one context to the next (`Shown`). What is known of a family (`Known`) is kept by every step, and
from it follows that all of this agrees (`Family.sound_of_sequence`). -/

namespace NetProbe

namespace Family

/-- What may happen to contexts, which go by their numbers. -/
inductive Event where
  /-- The context `number` is derived from the context `parent`. -/
  | derived (parent number : Nat) (time : Time) (timeout : Nat)
  | cancelled (number : Nat) (time : Time)

end Family

/-- Contexts that come from one root. -/
structure Family where
  now : Time := 0
  /-- The contexts by their numbers. -/
  context? : Nat → Option Context
  /-- The numbers of the contexts that were cancelled, and when they were. -/
  cancelled : List (Nat × Time) := []

namespace Family

/-- Only a root. -/
def new (root : Nat) : Family where
  context? n := if n = root then some (.root root) else none

/-- The family with one more context. -/
def add (f : Family) (number : Nat) (c : Context) (time : Time) : Family :=
  { f with now := time, context? := fun n => if n = number then some c else f.context? n }

/-- The family after one of its contexts was cancelled. -/
def cancel (f : Family) (number : Nat) (time : Time) : Family :=
  { f with now := time, cancelled := f.cancelled ++ [(number, time)] }

/-- The numbers of the contexts that were cancelled. -/
def cancelledNumbers (f : Family) : List Nat :=
  f.cancelled.map Prod.fst

/-- A context is derived from another one under a new number, or cancelled. -/
inductive Step : Family → Event → Family → Prop
  | derived {f : Family} {parent number : Nat} {c : Context} {time : Time} {timeout : Nat}
      (hc : f.context? parent = some c) (hnumber : f.context? number = none)
      (htime : f.now ≤ time) :
    Step f (.derived parent number time timeout)
      (f.add number (c.withTimeout number time timeout) time)
  | cancelled {f : Family} {number : Nat} {c : Context} {time : Time}
      (hc : f.context? number = some c) (htime : f.now ≤ time) :
    Step f (.cancelled number time) (f.cancel number time)

/-! ## What histories tell -/

section Histories

variable {h : List Event} {root a n : Nat}

/-- The one context was derived from the other one. -/
def Derived (h : List Event) (parent number : Nat) : Prop :=
  ∃ time timeout, .derived parent number time timeout ∈ h

/-- The second context is the first one, or comes from it by derivations. -/
def Below (h : List Event) : Nat → Nat → Prop :=
  Relation.ReflTransGen (Derived h)

/-- The context was cancelled itself. -/
def Cancelled (h : List Event) (number : Nat) : Prop :=
  ∃ time, .cancelled number time ∈ h

/-- A way from the root to a context: the moments and the timeouts of the derivations on it, the last
    one first. -/
inductive Path (h : List Event) (root : Nat) : Nat → List (Time × Nat) → Prop
  | root : Path h root root []
  | derived {parent number : Nat} {time : Time} {timeout : Nat} {steps : List (Time × Nat)}
      (hparent : Path h root parent steps) (hmem : .derived parent number time timeout ∈ h) :
    Path h root number ((time, timeout) :: steps)

/-- Until when the derivations on a path let a context live. -/
def limits (steps : List (Time × Nat)) : List Time :=
  steps.map fun s => s.1 + s.2

/-- The token of the context shows that it was cancelled. A token is cancelled with those that it
    comes from, and made cancelled from a cancelled one. -/
inductive Shown : List Event → Nat → Prop
  | cancelled {h : List Event} {a n : Nat} (time : Time) (hbelow : Below h a n) :
    Shown (h ++ [.cancelled a time]) n
  | derived {h : List Event} {parent : Nat} (number : Nat) (time : Time) (timeout : Nat)
      (hparent : Shown h parent) :
    Shown (h ++ [.derived parent number time timeout]) number
  | later {h : List Event} {n : Nat} (e : Event) (hn : Shown h n) : Shown (h ++ [e]) n

theorem Below.append (hbelow : Below h a n) (k : List Event) : Below (h ++ k) a n :=
  Relation.ReflTransGen.mono
    (fun _ _ ⟨time, timeout, hmem⟩ => ⟨time, timeout, List.mem_append_left k hmem⟩) _ _ hbelow

theorem Cancelled.append (hcancelled : Cancelled h a) (k : List Event) : Cancelled (h ++ k) a :=
  hcancelled.imp fun _ hmem => List.mem_append_left k hmem

theorem Path.append {steps : List (Time × Nat)} (hpath : Path h root n steps) (k : List Event) :
    Path (h ++ k) root n steps := by
  induction hpath with
  | root => exact .root
  | derived _ hmem ih => exact .derived ih (List.mem_append_left k hmem)

/-- Tokens only show what was done to a context or to one that it comes from. -/
theorem Shown.exists_cancelled (hshown : Shown h n) : ∃ a, Cancelled h a ∧ Below h a n := by
  induction hshown with
  | @cancelled h a n time hbelow =>
    exact ⟨a, ⟨time, List.mem_append_right h List.mem_cons_self⟩, hbelow.append _⟩
  | @derived h parent number time timeout _ ih =>
    obtain ⟨a, hcancelled, hbelow⟩ := ih
    refine ⟨a, hcancelled.append _, (hbelow.append _).tail ⟨time, timeout, ?_⟩⟩
    exact List.mem_append_right h List.mem_cons_self
  | later e _ ih =>
    obtain ⟨a, hcancelled, hbelow⟩ := ih
    exact ⟨a, hcancelled.append _, hbelow.append _⟩

end Histories

/-! ## What every step keeps -/

/-- What is known of a family from its history. -/
structure Known (root : Nat) (h : List Event) (f : Family) : Prop where
  start : f.context? root = some (.root root)
  path : ∀ n c, f.context? n = some c → ∃ steps, Path h root n steps
  /-- A derived context is what its parent made of it. -/
  child : ∀ p n time timeout, .derived p n time timeout ∈ h →
    ∃ c, f.context? p = some c ∧ f.context? n = some (c.withTimeout n time timeout)
  /-- A context is derived only once. -/
  once : ∀ n p p' time time' timeout timeout', .derived p n time timeout ∈ h →
    .derived p' n time' timeout' ∈ h → p = p' ∧ time = time' ∧ timeout = timeout'
  /-- There are no circles. -/
  nodup : ∀ n c, f.context? n = some c → c.lineage.Nodup
  ancestor : ∀ n c, f.context? n = some c → ∀ a ∈ c.lineage, ∃ d, f.context? a = some d
  cancelled : ∀ a time, (a, time) ∈ f.cancelled ↔ .cancelled a time ∈ h
  past : ∀ m ∈ f.cancelled, m.2 ≤ f.now
  member : ∀ m ∈ f.cancelled, ∃ c, f.context? m.1 = some c
  shown : ∀ n c, f.context? n = some c → c.isCancelled f.cancelledNumbers = true → Shown h n

variable {root a n p : Nat} {h : List Event} {f g : Family} {c : Context}

theorem known_new (root : Nat) : Known root [] (new root) where
  start := if_pos rfl
  path n c hc := by
    obtain ⟨rfl, -⟩ := Option.ite_some_none_eq_some.1 hc
    exact ⟨[], .root⟩
  child _ _ _ _ hmem := absurd hmem List.not_mem_nil
  once _ _ _ _ _ _ _ hmem := absurd hmem List.not_mem_nil
  nodup n c hc := by
    obtain ⟨-, rfl⟩ := Option.ite_some_none_eq_some.1 hc
    exact List.nodup_singleton root
  ancestor n c hc a ha := by
    obtain ⟨-, rfl⟩ := Option.ite_some_none_eq_some.1 hc
    exact ⟨_, if_pos (List.mem_singleton.1 ha)⟩
  cancelled _ _ := by simp [new]
  past _ hm := absurd hm List.not_mem_nil
  member _ hm := absurd hm List.not_mem_nil
  shown n c _ hcancelled := by
    obtain ⟨_, -, ha⟩ := Context.isCancelled_iff.1 hcancelled
    exact absurd ha List.not_mem_nil

namespace Known

/-- A context is among its own ancestors. -/
theorem self_mem (hf : Known root h f) (hc : f.context? n = some c) : n ∈ c.lineage := by
  obtain ⟨steps, hpath⟩ := hf.path n c hc
  cases hpath with
  | root =>
    rw [hf.start] at hc
    cases hc
    exact List.mem_cons_self
  | derived _ hmem =>
    obtain ⟨d, -, hn⟩ := hf.child _ _ _ _ hmem
    rw [hn] at hc
    cases hc
    exact List.mem_cons_self

/-- The lineage of a context is who it comes from. -/
theorem mem_lineage_iff (hf : Known root h f) (hc : f.context? n = some c) :
    a ∈ c.lineage ↔ Below h a n := by
  constructor
  · intro ha
    obtain ⟨steps, hpath⟩ := hf.path n c hc
    induction hpath generalizing c with
    | root =>
      rw [hf.start] at hc
      cases hc
      rw [List.mem_singleton.1 ha]
      exact .refl
    | @derived parent number time timeout _ _ hmem ih =>
      obtain ⟨d, hd, hn⟩ := hf.child _ _ _ _ hmem
      rw [hn] at hc
      cases hc
      rcases List.mem_cons.1 ha with rfl | ha
      · exact .refl
      · exact (ih hd ha).tail ⟨time, timeout, hmem⟩
  · intro hbelow
    induction hbelow generalizing c with
    | refl => exact hf.self_mem hc
    | tail _ hderived ih =>
      obtain ⟨time, timeout, hmem⟩ := hderived
      obtain ⟨d, hd, hn⟩ := hf.child _ _ _ _ hmem
      rw [hn] at hc
      cases hc
      exact List.mem_cons_of_mem _ (ih hd)

theorem mem_cancelledNumbers_iff (hf : Known root h f) :
    a ∈ f.cancelledNumbers ↔ Cancelled h a := by
  simp only [cancelledNumbers, List.mem_map, Prod.exists, exists_and_right, exists_eq_right,
    hf.cancelled, Cancelled]

theorem isCancelled_iff (hf : Known root h f) (hc : f.context? n = some c) :
    c.isCancelled f.cancelledNumbers = true ↔ ∃ a, Cancelled h a ∧ Below h a n := by
  simp only [Context.isCancelled_iff, hf.mem_lineage_iff hc, hf.mem_cancelledNumbers_iff,
    and_comm]

/-- A context that there is stays what it is when another one is added. -/
theorem context?_add {number : Nat} (hnumber : f.context? number = none) (d : Context) (time : Time)
    (hc : f.context? n = some c) : (f.add number d time).context? n = some c := by
  have hne : n ≠ number := by
    rintro rfl
    rw [hnumber] at hc
    cases hc
  exact (if_neg hne).trans hc

theorem of_context?_add {number : Nat} {d : Context} {time : Time}
    (hc : (f.add number d time).context? n = some c) :
    (n = number ∧ c = d) ∨ f.context? n = some c := by
  by_cases hn : n = number
  · exact .inl ⟨hn, (Option.some.inj ((if_pos hn).symm.trans hc)).symm⟩
  · exact .inr ((if_neg hn).symm.trans hc)

theorem derived {number : Nat} {time : Time} {timeout : Nat} (hf : Known root h f)
    (hc : f.context? p = some c) (hnumber : f.context? number = none) (htime : f.now ≤ time) :
    Known root (h ++ [.derived p number time timeout])
      (f.add number (c.withTimeout number time timeout) time) := by
  have hkeep {m d} : f.context? m = some d →
      (f.add number (c.withTimeout number time timeout) time).context? m = some d :=
    context?_add hnumber _ _
  have hfresh : ∀ d, f.context? number ≠ some d := fun d hd => by
    rw [hnumber] at hd
    cases hd
  have hmember {q m t k} (hmem : .derived q m t k ∈ h ++ [Event.derived p number time timeout]) :
      .derived q m t k ∈ h ∨ (q = p ∧ m = number ∧ t = time ∧ k = timeout) := by
    simpa using hmem
  have hnever {q t k} : .derived q number t k ∉ h := fun hmem =>
    (hf.child _ _ _ _ hmem).elim fun _ hd => hfresh _ hd.2
  exact {
    start := hkeep hf.start
    path := fun m d hd => by
      rcases of_context?_add hd with ⟨rfl, -⟩ | hd
      · obtain ⟨steps, hpath⟩ := hf.path p c hc
        exact ⟨_, .derived (hpath.append _) (List.mem_append_right h List.mem_cons_self)⟩
      · exact (hf.path m d hd).imp fun _ hpath => hpath.append _
    child := fun q m t k hmem => by
      rcases hmember hmem with hmem | ⟨rfl, rfl, rfl, rfl⟩
      · obtain ⟨d, hd, hm⟩ := hf.child q m t k hmem
        exact ⟨d, hkeep hd, hkeep hm⟩
      · exact ⟨c, hkeep hc, if_pos rfl⟩
    once := fun m q q' t t' k k' hq hq' => by
      rcases hmember hq with hold | ⟨hqp, hm, ht, hk⟩ <;>
        rcases hmember hq' with hold' | ⟨hqp', hm', ht', hk'⟩
      · exact hf.once m q q' t t' k k' hold hold'
      · exact absurd (hm' ▸ hold) hnever
      · exact absurd (hm ▸ hold') hnever
      · exact ⟨hqp.trans hqp'.symm, ht.trans ht'.symm, hk.trans hk'.symm⟩
    nodup := fun m d hd => by
      rcases of_context?_add hd with ⟨rfl, rfl⟩ | hd
      · have hnew : m ∉ c.lineage := fun hmem => (hf.ancestor p c hc m hmem).elim hfresh
        exact List.nodup_cons.2 ⟨hnew, hf.nodup p c hc⟩
      · exact hf.nodup m d hd
    ancestor := fun m d hd a ha => by
      rcases of_context?_add hd with ⟨rfl, rfl⟩ | hd
      · rcases List.mem_cons.1 ha with rfl | ha
        · exact ⟨_, if_pos rfl⟩
        · exact (hf.ancestor p c hc a ha).imp fun _ => hkeep
      · exact (hf.ancestor m d hd a ha).imp fun _ => hkeep
    cancelled := fun a t => by simpa [add] using hf.cancelled a t
    past := fun m hm => Nat.le_trans (hf.past m hm) htime
    member := fun m hm => (hf.member m hm).imp fun _ => hkeep
    shown := fun m d hd hcancelled => by
      rcases of_context?_add hd with ⟨rfl, rfl⟩ | hd
      · -- The new number was never cancelled, so it is one that the parent comes from.
        obtain ⟨a, ha, hcancelled⟩ := Context.isCancelled_iff.1 hcancelled
        rcases List.mem_cons.1 ha with rfl | ha
        · obtain ⟨k, hk, rfl⟩ := List.mem_map.1 hcancelled
          exact ((hf.member k hk).elim hfresh).elim
        · exact .derived _ _ _ (hf.shown p c hc (Context.isCancelled_iff.2 ⟨a, ha, hcancelled⟩))
      · exact .later _ (hf.shown m d hd hcancelled) }

theorem cancel {number : Nat} {time : Time} (hf : Known root h f)
    (hc : f.context? number = some c) (htime : f.now ≤ time) :
    Known root (h ++ [.cancelled number time]) (f.cancel number time) := by
  have hmember {q m t k} (hmem : .derived q m t k ∈ h ++ [Event.cancelled number time]) :
      .derived q m t k ∈ h := by
    simpa using hmem
  exact {
    start := hf.start
    path := fun m d hd => (hf.path m d hd).imp fun _ hpath => hpath.append _
    child := fun q m t k hmem => hf.child q m t k (hmember hmem)
    once := fun m q q' t t' k k' hq hq' => hf.once m q q' t t' k k' (hmember hq) (hmember hq')
    nodup := hf.nodup
    ancestor := hf.ancestor
    cancelled := fun a t => by simp [Family.cancel, hf.cancelled]
    past := fun m hm => by
      rcases List.mem_append.1 hm with hm | hm
      · exact Nat.le_trans (hf.past m hm) htime
      · exact Nat.le_of_eq (congrArg Prod.snd (List.mem_singleton.1 hm))
    member := fun m hm => by
      rcases List.mem_append.1 hm with hm | hm
      · exact hf.member m hm
      · exact List.mem_singleton.1 hm ▸ ⟨c, hc⟩
    shown := fun m d hd hcancelled => by
      obtain ⟨a, ha, hcancelled⟩ := Context.isCancelled_iff.1 hcancelled
      rw [cancelledNumbers, Family.cancel, List.map_append, List.mem_append] at hcancelled
      rcases hcancelled with hcancelled | hnumber
      · exact .later _ (hf.shown m d hd (Context.isCancelled_iff.2 ⟨a, ha, hcancelled⟩))
      · rw [List.mem_singleton.1 hnumber] at ha
        exact .cancelled _ ((hf.mem_lineage_iff hd).1 ha) }

/-- A step keeps what is known. -/
theorem step {e : Event} (hf : Known root h f) (hstep : Step f e g) : Known root (h ++ [e]) g := by
  cases hstep with
  | derived hc hnumber htime => exact hf.derived hc hnumber htime
  | cancelled hc htime => exact hf.cancel hc htime

end Known

theorem known_of_sequence (hs : Sequence Step (new root) h f) : Known root h f :=
  hs.holds_after (k := []) (fun hstep hf => hf.step hstep) (known_new root)

/-! ## What follows -/

namespace Known

/-- The root was derived from nothing. -/
theorem ne_root (hf : Known root h f) (hderived : Derived h p n) : n ≠ root := by
  rintro rfl
  obtain ⟨time, timeout, hmem⟩ := hderived
  obtain ⟨d, hd, hn⟩ := hf.child _ _ _ _ hmem
  have hlineage : [n] = n :: d.lineage :=
    congrArg Context.lineage (Option.some.inj (hf.start.symm.trans hn))
  have hnil : [] = d.lineage := (List.cons.inj hlineage).2
  exact List.not_mem_nil (hnil ▸ hf.self_mem hd)

theorem path_unique (hf : Known root h f) {steps steps' : List (Time × Nat)}
    (hpath : Path h root n steps) (hpath' : Path h root n steps') : steps = steps' := by
  induction hpath generalizing steps' with
  | root =>
    cases hpath' with
    | root => rfl
    | derived _ hmem => exact absurd rfl (hf.ne_root ⟨_, _, hmem⟩)
  | derived _ hmem ih =>
    cases hpath' with
    | root => exact absurd rfl (hf.ne_root ⟨_, _, hmem⟩)
    | derived hparent' hmem' =>
      obtain ⟨rfl, rfl, rfl⟩ := hf.once _ _ _ _ _ _ _ hmem hmem'
      rw [ih hparent']

/-- The deadline of a context is the earliest one that the derivations on its path ask for. -/
theorem exists_deadline (hf : Known root h f) {steps : List (Time × Nat)}
    (hpath : Path h root n steps) :
    ∃ c, f.context? n = some c ∧ c.deadline = (limits steps).min? := by
  induction hpath with
  | root => exact ⟨_, hf.start, rfl⟩
  | @derived parent number time timeout steps _ hmem ih =>
    obtain ⟨c, hc, hdeadline⟩ := ih
    obtain ⟨d, hd, hn⟩ := hf.child _ _ _ _ hmem
    rw [hc] at hd
    cases hd
    refine ⟨_, hn, ?_⟩
    rw [Context.withTimeout, hdeadline, Context.earlier_min?]
    rfl

/-- Nobody comes from a context that was derived from it, or from another one of the same parent. -/
theorem not_below (hf : Known root h f) (hderived : Derived h p a) :
    ¬ Below h a p ∧ ∀ b, Derived h p b → b ≠ a → ¬ Below h a b := by
  obtain ⟨time, timeout, hmem⟩ := hderived
  obtain ⟨c, hc, ha⟩ := hf.child _ _ _ _ hmem
  have hparent : ¬ Below h a p := by
    rw [← hf.mem_lineage_iff hc]
    exact (List.nodup_cons.1 (hf.nodup a _ ha)).1
  refine ⟨hparent, fun b ⟨_, _, hmem'⟩ hne hbelow => ?_⟩
  obtain ⟨d, hd, hb⟩ := hf.child _ _ _ _ hmem'
  rcases List.mem_cons.1 ((hf.mem_lineage_iff hb).2 hbelow) with rfl | hmem''
  · exact hne rfl
  · exact hparent ((hf.mem_lineage_iff hd).1 hmem'')

/-- Cancelling does nothing to contexts that do not come from the one that is cancelled. -/
theorem isCancelled_cancel (hf : Known root h f) (hc : f.context? n = some c) {a : Nat}
    (hbelow : ¬ Below h a n) (time : Time) :
    c.isCancelled (f.cancel a time).cancelledNumbers = c.isCancelled f.cancelledNumbers := by
  have hlineage : a ∉ c.lineage := fun ha => hbelow ((hf.mem_lineage_iff hc).1 ha)
  rw [Bool.eq_iff_iff, Context.isCancelled_iff, Context.isCancelled_iff]
  simp only [cancelledNumbers, Family.cancel, List.map_append, List.mem_append]
  refine exists_congr fun b => and_congr_right fun hb => or_iff_left fun hba => ?_
  exact hlineage ((List.mem_singleton.1 hba : b = a) ▸ hb)

/-- In surroundings in which at least these contexts are called off, a cancelled one is. -/
theorem isCancelled_cancelledBy (hf : Known root h f) {e : Surroundings} {time : Time}
    (he : f.cancelled ⊆ e.cancelled) (htime : f.now ≤ time)
    (hcancelled : c.isCancelled f.cancelledNumbers = true) :
    c.isCancelled (e.cancelledBy time) = true := by
  obtain ⟨a, ha, hmem⟩ := Context.isCancelled_iff.1 hcancelled
  obtain ⟨m, hm, rfl⟩ := List.mem_map.1 hmem
  have hpast : m.2 ≤ time := Nat.le_trans (hf.past m hm) htime
  refine Context.isCancelled_iff.2 ⟨m.1, ha, List.mem_map_of_mem ?_⟩
  exact List.mem_filter.2 ⟨he hm, decide_eq_true hpast⟩

end Known

/-- Whether contexts are the tree that their history makes of them. -/
structure Sound (root : Nat) (h : List Event) (f : Family) : Prop where
  /-- There is one path to each context, and the deadline is the earliest on it. -/
  deadline : ∀ n c, f.context? n = some c →
    ∃ steps, Path h root n steps ∧ (∀ steps', Path h root n steps' → steps' = steps) ∧
      c.deadline = (limits steps).min?
  /-- No context outlives the one that it was derived from. -/
  earlier : ∀ p n, Derived h p n → ∃ c d, f.context? p = some c ∧ f.context? n = some d ∧
    ∃ t, d.deadline = some t ∧ ∀ u ∈ c.deadline, t ≤ u
  cancelled : ∀ n c, f.context? n = some c →
    (c.isCancelled f.cancelledNumbers = true ↔ ∃ a, Cancelled h a ∧ Below h a n)
  shown : ∀ n c, f.context? n = some c → (c.isCancelled f.cancelledNumbers = true ↔ Shown h n)
  /-- Cancelling reaches only contexts that come from the cancelled one. -/
  apart : ∀ a time g, Step f (.cancelled a time) g → ∀ n c, f.context? n = some c →
    ¬ Below h a n → c.isCancelled g.cancelledNumbers = c.isCancelled f.cancelledNumbers
  /-- Neither the parent nor a sibling comes from a context. -/
  unreached : ∀ p a, Derived h p a → ¬ Below h a p ∧ ∀ b, Derived h p b → b ≠ a → ¬ Below h a b
  /-- Work in a cancelled context ends at once, whatever the deadline. -/
  interrupted : ∀ n c, f.context? n = some c → c.isCancelled f.cancelledNumbers = true →
    ∀ (e : Surroundings) (w : World), f.cancelled ⊆ e.cancelled → f.now ≤ w.now →
      ∀ deadline : Option Time,
        (∀ a, (e.perform (.attempt { c with deadline } a) w).1 = .now (.error .cancelled)) ∧
        ∀ (α : Type) (work : Time → Option α) (wakeUps : List Time),
          Context.poll { c with deadline } w.now (e.calledOff c) work wakeUps
            = { polls := [], ending := some ⟨w.now, .error .cancelled⟩ }
  /-- Work that is polled whenever something may end it ends as the context says. -/
  polled : ∀ n c, f.context? n = some c → ∀ (α : Type) (now : Time) (calledOff : Option Time)
    (done : Option (Time × α)) (wakeUps : List Time), (now :: wakeUps).Pairwise (· < ·) →
      (∀ e, c.ending now calledOff done = some e → e.time ∈ now :: wakeUps) →
      (c.poll now calledOff (workUntil done) wakeUps).ending = c.ending now calledOff done

/-- **Contexts form a tree.** Whatever contexts are derived from a root and from one another, and
    whichever of them are cancelled in between: deadlines only get earlier on the way from the
    root, contexts are cancelled with those that they come from and with nobody else, and work in a
    cancelled context is not even started. -/
theorem sound_of_sequence (hs : Sequence Step (new root) h f) : Sound root h f := by
  have hf := known_of_sequence hs
  exact {
    deadline := fun n c hc => by
      obtain ⟨steps, hpath⟩ := hf.path n c hc
      obtain ⟨d, hd, hdeadline⟩ := hf.exists_deadline hpath
      rw [hc] at hd
      cases hd
      exact ⟨steps, hpath, fun _ hpath' => hf.path_unique hpath' hpath, hdeadline⟩
    earlier := fun p n ⟨time, timeout, hmem⟩ => by
      obtain ⟨c, hc, hn⟩ := hf.child _ _ _ _ hmem
      exact ⟨c, _, hc, hn, _, rfl, fun _ hu => Context.earlier_le_of_mem hu⟩
    cancelled := fun n c hc => hf.isCancelled_iff hc
    shown := fun n c hc =>
      ⟨hf.shown n c hc, fun hshown => (hf.isCancelled_iff hc).2 hshown.exists_cancelled⟩
    apart := fun a time g hstep n c hc hbelow => by
      cases hstep
      exact hf.isCancelled_cancel hc hbelow time
    unreached := fun p a hderived => hf.not_below hderived
    interrupted := fun n c hc hcancelled e w he hw deadline => by
      have hcalledOff := hf.isCancelled_cancelledBy he hw hcancelled
      obtain ⟨t, ht, hsome⟩ := Surroundings.exists_calledOff hcalledOff
      constructor
      · exact Surroundings.perform_attempt (c := { c with deadline }) hcalledOff (Nat.le_refl _)
      · intro α work wakeUps
        exact Context.poll_of_calledOff hsome ht work wakeUps
    polled := by
      intro n c hc α now calledOff done wakeUps hascending hwakes
      exact Context.poll_ending hascending hwakes }

/-- Two children of a root, and two of the first of them: one that was there before it was
    cancelled, and one that was not. -/
def siblings : List Event :=
  [.derived 0 1 0 50, .derived 1 2 10 60, .cancelled 1 20, .derived 1 3 30 5, .derived 0 4 30 70]

theorem sound_of_sequence_siblings :
    ∃ f, Sequence Step (new 0) siblings f ∧ Sound 0 siblings f ∧
      (List.range 6).map (fun n => (f.context? n).map fun c =>
          (c.deadline, c.isCancelled f.cancelledNumbers))
        = [some (none, false), some (some 50, true), some (some 50, true), some (some 35, true),
          some (some 100, false), none] := by
  have hs : ∃ f, Sequence Step (new 0) siblings f ∧ f = _ := ⟨_,
    .cons (.derived rfl rfl (Nat.zero_le _)) <| .cons (.derived rfl rfl (Nat.zero_le _)) <|
    .cons (.cancelled rfl (by decide)) <| .cons (.derived rfl rfl (by decide)) <|
    .cons (.derived rfl rfl (Nat.le_refl _)) <| .nil _, rfl⟩
  obtain ⟨f, hf, rfl⟩ := hs
  exact ⟨_, hf, sound_of_sequence hf, by decide⟩

end Family

end NetProbe
