import NetProbe.Proofs.Run.Scheduler
set_option autoImplicit false

/-! # Terms

`Terms` say how effects are answered, on which an activity may rely, and which effects it may
perform at which moments, which it guarantees. `Activity.Honours` says that an activity keeps to
terms from a moment on and comes to values of some kind, whatever the answers are on which it may
rely. It is told along the activity: the branches of a pool keep to terms each for itself, since no
branch depends on what the others do.

What keeps to terms keeps to them in every run (`Activity.Honours.run`). And where everything that
it may do is answered at once, the scheduler runs it without letting time pass
(`Activity.Honours.finishesAtOnce`). For scripts, `Script.Honours` is a recursion on effects. -/

namespace NetProbe

/-- What an activity may rely on, and what it has to guarantee. -/
structure Terms where
  /-- Whether an action is one that can happen at a moment. -/
  rely : Time → Action → Prop
  /-- Whether an effect may be performed at a moment. -/
  guarantee : Time → Effect → Prop

/-! ## Scripts -/

namespace Script

variable {K : Terms} {α β : Type} {Q : Time → α → Prop} {t : Time}

/-- Whether a script that starts at a moment or later keeps to terms, and comes to results of some
    kind. The kind may depend on a moment that is past when the result is there. -/
def Honours (K : Terms) (Q : Time → α → Prop) : Script α → Time → Prop
  | done a, t => Q t a
  | perform e next, t => ∀ t', t ≤ t' → K.guarantee t' e ∧
      ∀ a, K.rely t' ⟨e, a⟩ → (next a).Honours K Q t'

theorem honours_bind {x : Script β} {f : β → Script α} :
    (x >>= f).Honours K Q t ↔ x.Honours K (fun t b => (f b).Honours K Q t) t := by
  induction x generalizing t with
  | done b => exact Iff.rfl
  | perform e next ih =>
    refine forall_congr' fun t' => forall_congr' fun _ => and_congr_right fun _ => ?_
    exact forall_congr' fun a => forall_congr' fun _ => ih a

end Script

/-! ## Activities -/

namespace Activity

/-- Whether an activity that goes on at a moment or later keeps to terms, and comes to values of
    some kind. -/
inductive Honours (K : Terms) : Time → (Value → Prop) → Activity → Prop
  | done {t : Time} {Q : Value → Prop} {v : Value} : Q v → Honours K t Q (.done v)
  | perform {t : Time} {Q : Value → Prop} {e : Effect} {next : e.Answer → Activity} :
    (∀ t', t ≤ t' → K.guarantee t' e) →
    (∀ t', t ≤ t' → ∀ a, K.rely t' ⟨e, a⟩ → Honours K t' Q (next a)) →
    Honours K t Q (.perform e next)
  /-- The branches keep to terms and come to values of a kind of their own. -/
  | pool {t : Time} {Q R : Value → Prop} {width : Nat} {running waiting : List Activity}
    {finished : List Value} {next : List Value → Activity} :
    (∀ p ∈ running ++ waiting, Honours K t R p) → (∀ v ∈ finished, R v) →
    (∀ t', t ≤ t' → ∀ vs : List Value, (∀ v ∈ vs, R v) → Honours K t' Q (next vs)) →
    Honours K t Q (.pool width running waiting finished next)

namespace Honours

variable {K : Terms} {Q R : Value → Prop} {t t' : Time} {p q : Activity}

theorem later (hp : Honours K t Q p) (h : t ≤ t') : Honours K t' Q p := by
  induction hp generalizing t' with
  | done hv => exact .done hv
  | perform hguarantee hnext _ =>
    exact .perform (fun t'' ht => hguarantee t'' (Nat.le_trans h ht))
      fun t'' ht => hnext t'' (Nat.le_trans h ht)
  | pool _ hfinished hnext ih _ =>
    exact .pool (fun p hp => ih p hp h) hfinished fun t'' ht => hnext t'' (Nat.le_trans h ht)

/-- One activity after the other. -/
theorem bind {f : Value → Activity} (hp : Honours K t R p)
    (hf : ∀ t', t ≤ t' → ∀ v, R v → Honours K t' Q (f v)) : Honours K t Q (p.bind f) := by
  induction hp with
  | done hv => exact hf _ (Nat.le_refl _) _ hv
  | perform hguarantee _ ih =>
    refine .perform hguarantee fun t' ht a ha => ih t' ht a ha fun t'' ht' => ?_
    exact hf t'' (Nat.le_trans ht ht')
  | pool hbranches hfinished _ _ ih =>
    refine .pool hbranches hfinished fun t' ht vs hvs => ih t' ht vs hvs fun t'' ht' => ?_
    exact hf t'' (Nat.le_trans ht ht')

/-- All activities at a time, each of which keeps to terms. -/
theorem all {width : Nat} {ps : List Activity} {next : List Value → Activity}
    (hps : ∀ p ∈ ps, Honours K t R p)
    (hnext : ∀ t', t ≤ t' → ∀ vs : List Value, (∀ v ∈ vs, R v) → Honours K t' Q (next vs)) :
    Honours K t Q (Activity.all width ps next) :=
  .pool hps (fun _ hv => absurd hv List.not_mem_nil) hnext

/-! ## Runs -/

/-- A step at a moment keeps to terms. -/
theorem step {l : Option Action} (hp : Honours K t Q p) (hstep : Step p l q) (h : t ≤ t')
    (hrely : ∀ a ∈ l, K.rely t' a) :
    (∀ a ∈ l, K.guarantee t' a.effect) ∧ Honours K t' Q q := by
  induction hstep generalizing Q with
  | perform e next a =>
    cases hp with
    | perform hguarantee hnext =>
      refine ⟨fun b hb => ?_, hnext t' h a (hrely _ rfl)⟩
      obtain rfl := Option.some.inj hb
      exact hguarantee t' h
  | @branch p q l width before after waiting finished next _ ih =>
    cases hp with
    | pool hbranches hfinished hnext =>
      obtain ⟨hguarantee, hq⟩ := ih (hbranches p (by simp)) hrely
      refine ⟨hguarantee, .pool (fun r hr => ?_) hfinished fun t'' ht => ?_⟩
      · rw [List.append_assoc, List.cons_append, List.mem_append, List.mem_cons] at hr
        rcases hr with hr | rfl | hr
        · exact (hbranches r (by simp [hr])).later h
        · exact hq
        · exact (hbranches r (by simpa [or_assoc] using .inr (.inr (List.mem_append.1 hr)))).later h
      · exact hnext t'' (Nat.le_trans h ht)
  | start width running p waiting finished next _ =>
    refine ⟨by simp, ?_⟩
    rw [← List.singleton_append] at hp
    cases hp with
    | pool hbranches hfinished hnext =>
      rw [← List.append_assoc] at hbranches
      exact .pool (fun r hr => (hbranches r hr).later h) hfinished
        fun t'' ht => hnext t'' (Nat.le_trans h ht)
  | finish width before v after waiting finished next =>
    refine ⟨by simp, ?_⟩
    cases hp with
    | pool hbranches hfinished hnext =>
      have hv := hbranches (.done v) (by simp)
      cases hv with
      | done hv =>
        refine .pool (fun r hr => (hbranches r ?_).later h) (fun u hu => ?_)
          fun t'' ht => hnext t'' (Nat.le_trans h ht)
        · simp only [List.mem_append, List.mem_cons] at hr ⊢
          tauto
        · rcases List.mem_append.1 hu with hu | hu
          · exact hfinished u hu
          · exact List.mem_singleton.1 hu ▸ hv
  | gather width finished next =>
    refine ⟨by simp, ?_⟩
    cases hp with
    | pool _ hfinished hnext => exact hnext t' h finished hfinished

/-- A run keeps to terms, if it is answered as they say. -/
theorem run {h : List Occurrence} (hp : Honours K t Q p) (hrun : Run p (actions h) q)
    (hh : Chronological t h) (hrely : ∀ o ∈ h, K.rely o.time o.action) :
    (∀ o ∈ h, K.guarantee o.time o.action.effect) ∧ ∃ t', t ≤ t' ∧ Honours K t' Q q := by
  generalize hk : actions h = k at hrun
  induction hrun generalizing t h with
  | refl p =>
    obtain rfl := List.map_eq_nil_iff.1 hk
    exact ⟨fun _ ho => absurd ho List.not_mem_nil, t, Nat.le_refl t, hp⟩
  | @head p q r l k hstep _ ih =>
    cases l with
    | none =>
      obtain ⟨-, hq⟩ := hp.step hstep (Nat.le_refl t) (by simp)
      exact ih hq hh hrely hk
    | some a =>
      obtain ⟨o, h, rfl, rfl, rfl⟩ := List.map_eq_cons_iff.1 hk
      have hfirst : K.rely o.time o.action := hrely o List.mem_cons_self
      obtain ⟨hguarantee, hq⟩ := hp.step hstep hh.1 fun a ha => Option.some.inj ha ▸ hfirst
      obtain ⟨hrest, t', ht', hr⟩ :=
        ih hq hh.2 (fun o ho => hrely o (List.mem_cons_of_mem _ ho)) rfl
      refine ⟨fun o' ho' => ?_, t', Nat.le_trans hh.1 ht', hr⟩
      rcases List.mem_cons.1 ho' with rfl | ho'
      · exact hguarantee _ rfl
      · exact hrest o' ho'

end Honours

end Activity

/-- A script as an activity. -/
theorem Script.Honours.activity {K : Terms} {t : Time} {Q : Value → Prop} {x : Script Value}
    (hx : x.Honours K (fun _ => Q) t) : x.activity.Honours K t Q := by
  induction x generalizing t with
  | done v => exact .done hx
  | perform e next ih =>
    exact .perform (fun t' ht => (hx t' ht).1) fun t' ht a ha => ih a ((hx t' ht).2 a ha)

/-! ## Without waiting -/

/-- Whether going on with an activity leads to a value of some kind and takes no time, from a
    moment on. -/
def Activity.FinishesAtOnce (s : Surroundings) (start : Time) (R : Value → Prop) (p : Activity) :
    Prop :=
  ∀ w : World, start ≤ w.now → ∃ v w', advance s p w = (.done v, w') ∧ R v ∧ w'.now = w.now

section Pools

variable {s : Surroundings} {start : Time} {R : Value → Prop} {ps : List Activity}
  (hps : ∀ p ∈ ps, p.FinishesAtOnce s start R)

include hps

theorem advanceAll_atOnce (c : Crew) {w : World} (hw : start ≤ w.now) :
    ∃ vs w', advanceAll s ps c w = ({ c with finished := c.finished ++ vs }, w') ∧
      (∀ v ∈ vs, R v) ∧ w'.now = w.now := by
  induction ps generalizing c w with
  | nil => exact ⟨[], w, by simp [advanceAll], by simp, rfl⟩
  | cons p ps ih =>
    obtain ⟨v, w', hv, hR, hnow⟩ := hps p List.mem_cons_self w hw
    obtain ⟨vs, w'', hvs, hRs, hnow'⟩ := ih (fun p hp => hps p (List.mem_cons_of_mem _ hp))
      (c.add (.done v)) (hnow ▸ hw)
    refine ⟨v :: vs, w'', ?_, List.forall_mem_cons.2 ⟨hR, hRs⟩, hnow'.trans hnow⟩
    rw [advanceAll, hv]
    exact hvs.trans (by simp [Crew.add])

/-- While nothing runs there is room for the next activity. -/
theorem fill_atOnce (width : Nat) {c : Crew} (hc : c.running = []) {w : World}
    (hw : start ≤ w.now) :
    ∃ vs w', fill s width ps c w = ({ c with finished := c.finished ++ vs }, w') ∧
      (∀ v ∈ vs, R v) ∧ w'.now = w.now := by
  induction ps generalizing c w with
  | nil => exact ⟨[], w, by simp [fill], by simp, rfl⟩
  | cons p ps ih =>
    obtain ⟨v, w', hv, hR, hnow⟩ := hps p List.mem_cons_self w hw
    obtain ⟨vs, w'', hvs, hRs, hnow'⟩ := ih (fun p hp => hps p (List.mem_cons_of_mem _ hp))
      (c := c.add (.done v)) hc (hnow ▸ hw)
    refine ⟨v :: vs, w'', ?_, List.forall_mem_cons.2 ⟨hR, hRs⟩, hnow'.trans hnow⟩
    have hroom : c.running.length < max width 1 := by
      rw [hc, List.length_nil]
      omega
    rw [fill, if_pos hroom, hv]
    exact hvs.trans (by simp [Crew.add])

end Pools

namespace Activity.Honours

variable {K : Terms} {Q : Value → Prop} {t start : Time} {p : Activity} {s : Surroundings}

/-- What keeps to terms finishes at once, where everything is answered at once that it may do. -/
theorem finishesAtOnce (hp : Honours K t Q p) (ht : t ≤ start)
    (hK : ∀ (e : Effect) (w : World), start ≤ w.now → K.guarantee w.now e →
      ∃ a, (s.perform e w).1 = .now a ∧ K.rely w.now ⟨e, a⟩) :
    p.FinishesAtOnce s start Q := by
  induction hp generalizing start with
  | done hv => exact fun w _ => ⟨_, w, by rw [advance], hv, rfl⟩
  | @perform t Q e next hguarantee _ ih =>
    intro w hw
    have hlater := Nat.le_trans ht hw
    obtain ⟨a, hanswer, hrely⟩ := hK e w hw (hguarantee w.now hlater)
    have hnow : (s.perform e w).2.now = w.now := s.now_perform e w
    obtain ⟨v, w', hv, hQ, hnow'⟩ := ih w.now hlater a hrely (Nat.le_refl _)
      (fun e u hu => hK e u (Nat.le_trans hw hu)) (s.perform e w).2 (Nat.le_of_eq hnow.symm)
    refine ⟨v, w', ?_, hQ, hnow'.trans hnow⟩
    rw [advance]
    generalize hperform : s.perform e w = performed at *
    obtain ⟨reply, u⟩ := performed
    obtain rfl : reply = .now a := hanswer
    exact hv
  | @pool t Q R width running waiting finished next _ hfinished _ ih ihnext =>
    intro w hw
    have hbranches : ∀ p ∈ running ++ waiting, p.FinishesAtOnce s start R :=
      fun p hp => ih p hp ht hK
    obtain ⟨vs, w₁, hadvance, hvs, hnow₁⟩ := advanceAll_atOnce
      (fun p hp => hbranches p (List.mem_append_left _ hp)) { finished } hw
    obtain ⟨us, w₂, hfill, hus, hnow₂⟩ := fill_atOnce
      (fun p hp => hbranches p (List.mem_append_right _ hp)) width
      (c := { finished := finished ++ vs }) rfl (hnow₁ ▸ hw)
    have hall : ∀ v ∈ finished ++ vs ++ us, R v := by
      simp only [List.mem_append]
      rintro v ((hv | hv) | hv)
      · exact hfinished v hv
      · exact hvs v hv
      · exact hus v hv
    obtain ⟨v, w', hv, hQ, hnow⟩ := ihnext start ht _ hall (Nat.le_refl _) hK w₂
      (hnow₂ ▸ hnow₁ ▸ hw)
    refine ⟨v, w', ?_, hQ, hnow.trans (hnow₂.trans hnow₁)⟩
    rw [advance_pool, hadvance, refill, hfill]
    exact hv

end Activity.Honours

end NetProbe
