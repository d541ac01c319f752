import NetProbe.Proofs.Config.RoundTrip
import NetProbe.Proofs.Report.Deadlines
set_option autoImplicit false

/-! # Deadlines that the clock can show

A deadline is worked out by adding a timeout to the moment of the clock, before it is compared with
a deadline that is there already. A clock counts its seconds up to a latest one, and no sum may lie
behind it. A configuration `Fits` as long as none of its timeouts is longer than what is left of the
clock (`Accepted.fits_iff`), and then no attempt of an evaluation asks for a moment that the clock
cannot show (`Scope.Shown`). What is accepted need not fit. -/

namespace NetProbe

/-! ## Moments -/

theorem Representable.mono {t u : Time} (h : Representable u) (hle : t ≤ u) : Representable t :=
  Nat.le_trans (Nat.div_le_div_right hle) h

/-- A timeout of whole seconds adds to the seconds of the moment alone. -/
theorem representable_add_iff {now : Time} {seconds : UInt64} :
    Representable (now + milliseconds seconds) ↔ now / 1000 + seconds.toNat ≤ latestSecond := by
  rw [Representable, milliseconds, Nat.add_mul_div_right _ _ (by decide)]

theorem lt_add_milliseconds {seconds : UInt64} (h : 0 < seconds) (now : Time) :
    now < now + milliseconds seconds :=
  Nat.lt_add_of_pos_right (Nat.mul_pos h (by decide))

/-! ## Timeouts -/

namespace Config

variable {c : Config}

/-- The timeouts from which deadlines are worked out: those of the leaves, and that of whole
    evaluations if they are limited. -/
def waits (c : Config) : List UInt64 :=
  c.limits.map (·.2) ++ c.timeouts.evaluation?.toList

/-- Whether the clock can show every deadline that is worked out at a moment. -/
def Fits (c : Config) (now : Time) : Prop :=
  ∀ seconds ∈ c.waits, Representable (now + milliseconds seconds)

theorem Fits.mono {now later : Time} (h : c.Fits later) (hle : now ≤ later) : c.Fits now :=
  fun seconds hseconds => (h seconds hseconds).mono (Nat.add_le_add_right hle _)

theorem Accepted.pos_of_mem_waits (h : c.Accepted) {seconds : UInt64} (hmem : seconds ∈ c.waits) :
    0 < seconds := by
  rcases List.mem_append.1 hmem with hmem | hmem
  · obtain ⟨l, hl, rfl⟩ := List.mem_map.1 hmem
    exact (accepted_iff.1 h).1 l hl
  · have hsome := Option.mem_toList.1 hmem
    rw [Timeouts.evaluation?] at hsome
    split at hsome
    · cases hsome
    · next hne =>
      obtain rfl := Option.some.inj hsome
      exact UInt64.pos_iff_ne_zero.2 hne

/-- The timeouts must not be longer than what is left of the clock. -/
theorem Accepted.fits_iff (h : c.Accepted) {now : Time} :
    c.Fits now ↔ ∀ seconds ∈ c.waits, seconds.toNat ≤ latestSecond - now / 1000 := by
  refine forall_congr' fun seconds => forall_congr' fun hmem => ?_
  have hpos : 0 < seconds.toNat := h.pos_of_mem_waits hmem
  -- No timeout is zero, so none is left for a moment behind the end of the clock.
  have hleft (second latest : Nat) :
      second + seconds.toNat ≤ latest ↔ seconds.toNat ≤ latest - second := by omega
  rw [representable_add_iff, hleft]

theorem mem_waits_of_makes {l : Leaf} {a : Attempt} (h : l.Makes a) :
    l.timeout c.timeouts ∈ c.waits := by
  refine List.mem_append_left _ ?_
  cases h <;> simp [limits, Leaf.timeout]

theorem mem_waits_of_evaluation? {seconds : UInt64} (h : seconds ∈ c.timeouts.evaluation?) :
    seconds ∈ c.waits :=
  List.mem_append_right _ (Option.mem_toList.2 h)

/-- The deadline of an evaluation, if its context had none that the clock cannot show. -/
theorem Fits.representable_evaluation {s : Scope} {now : Time} (h : s.config.Fits now)
    (hown : ∀ d ∈ s.context.deadline, Representable d) :
    ∀ d ∈ (Operation.evaluationContext s now).deadline, Representable d := by
  rw [Operation.evaluationContext]
  split
  · next seconds hnone hseconds =>
    intro d hd
    rw [Context.limit, hnone] at hd
    obtain rfl := Option.some.inj hd
    exact h seconds (mem_waits_of_evaluation? hseconds)
  · exact hown

end Config

/-! ## Evaluations -/

/-- Whether an attempt that is made at a moment, in an evaluation that started at another one, is
    made by a leaf that asked the clock for no moment that it cannot show. -/
structure Scope.Shown (s : Scope) (start time : Time) (c : Context) (a : Attempt) : Prop where
  leaf : ∃ l : Leaf, l.Makes a ∧ ∃ now ≤ time,
    c = (Operation.evaluationContext s start).limit now
      (milliseconds (l.timeout s.config.timeouts)) ∧
    Representable (now + milliseconds (l.timeout s.config.timeouts))
  deadline : ∃ d, c.deadline = some d ∧ Representable d

theorem Scope.Limits.shown {s : Scope} {start time : Time} {c : Context} {a : Attempt}
    (h : (s.startingAt start).Limits time c a) (hfits : s.config.Fits time) :
    s.Shown start time c a := by
  obtain ⟨l, hl, now, hnow, rfl⟩ := h
  have hshown := hfits.mono hnow _ (Config.mem_waits_of_makes hl)
  exact ⟨⟨l, hl, now, hnow, rfl, hshown⟩, _, rfl, hshown.mono (Context.earlier_le _ _)⟩

namespace Config

/-- All deadlines that are worked out for an accepted configuration lie ahead, and the clock can
    show them if and only if no timeout is longer than what is left of the clock. As long as it can,
    it can show the deadline of an evaluation, and every moment that a leaf asks for in an
    evaluation of a compiled program. -/
theorem deadlines_fit {text : String} {c : Config} (h : ofToml text = .ok c) :
    (∀ now, (∀ seconds ∈ c.waits, now < now + milliseconds seconds) ∧
      (c.Fits now ↔ ∀ seconds ∈ c.waits, seconds.toNat ≤ latestSecond - now / 1000)) ∧
    ∀ s : Scope, s.config = c →
      (∀ now, c.Fits now → (∀ d ∈ s.context.deadline, Representable d) →
        ∀ d ∈ (Operation.evaluationContext s now).deadline, Representable d) ∧
      ∀ (n : Node) (op : Operation) (first : Occurrence) (rest : List Occurrence) (q : Activity),
        (Registry.standard.compile n).result = .ok op →
        (op.evaluation s).Run (actions (first :: rest)) q →
        Chronological first.time (first :: rest) →
        (∀ o ∈ first :: rest, o.action.Told o.time) →
        ∀ o ∈ first :: rest, c.Fits o.time →
          o.action.effect.Attempts (s.Shown first.time o.time) := by
  have haccepted := accepted_of_ofToml h
  refine ⟨fun now => ⟨fun seconds hmem => ?_, haccepted.fits_iff⟩, ?_⟩
  · exact lt_add_milliseconds (haccepted.pos_of_mem_waits hmem) now
  · rintro s rfl
    refine ⟨fun now hfits hown => hfits.representable_evaluation hown, ?_⟩
    intro n op first rest q hop hrun htimes htold o ho hfits
    exact (Operation.limits_of_run hop hrun htimes htold o ho).imp fun _ _ hlimits =>
      hlimits.shown hfits

open SlowLookup in
/-- With the default of 15 seconds for connections, the clock can show all deadlines up to 15
    seconds before its end. -/
theorem deadlines_fit_lookup : let c : Config := { timeouts := { evaluation := 1 } }
    ofToml "[timeouts]\nevaluation_secs = 1\n" = .ok c ∧
      c.Fits (9223372036854775792 * 1000 + 999) ∧ ¬ c.Fits (9223372036854775793 * 1000) ∧
      (Registry.standard.compile node).result = .ok operation ∧
      (scope none).Shown 0 0 (context (scope none)) (.lookup "example.com") := by
  have haccepted : ofToml "[timeouts]\nevaluation_secs = 1\n" =
      .ok { timeouts := { evaluation := 1 } } := by
    decide +kernel
  obtain ⟨hfits, hscopes⟩ := deadlines_fit haccepted
  have hlast := (hfits (9223372036854775792 * 1000 + 999)).2.2 (by
    simp [waits, limits, latestSecond, Timeouts.evaluation?])
  refine ⟨haccepted, hlast, fun hlate => ?_, rfl, ?_⟩
  · exact absurd ((hfits _).2.1 hlate 15 (by simp [waits, limits])) (by decide)
  · obtain ⟨q, hrun⟩ := exists_run (scope none) (.error .deadlineExceeded)
    exact (hscopes (scope none) rfl).2 node operation _ _ q rfl hrun (chronological_history _ _)
      (told_history _ _) _ (attempt_mem_history _ _) (hlast.mono (by decide))

/-- Nothing keeps a timeout in an accepted configuration from being longer than what is left of the
    clock. -/
theorem not_fits_of_latestSecond : ¬ ∀ (text : String) (c : Config) (now : Time),
    ofToml text = .ok c → 1000 ≤ now → c.Fits now := by
  intro hall
  have haccepted : ofToml "[timeouts]\ndns_lookup_secs = 9223372036854775807\n" =
      .ok { timeouts := { dnsLookup := 9223372036854775807 } } := by
    decide +kernel
  have hfits := hall _ _ 1000 haccepted (Nat.le_refl _)
  have hshown := representable_add_iff.1 (hfits 9223372036854775807 (by simp [waits, limits]))
  exact absurd hshown (by decide)

end Config

end NetProbe
