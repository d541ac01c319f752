import NetProbe.Operation
import NetProbe.Proofs.Run.History
set_option autoImplicit false

/-! # The calls in a run

What an operation comes to, taken apart along the operation: a `Course` is a value, a history and
the calls of leaves on the way. `MayTake` says which courses an operation may take on a value. The
branches of a fan-out take courses of their own, whose histories interleave and whose values arrive
in any order. Every run takes such a course: `Operation.exists_course`. -/

namespace NetProbe

open Activity (Traces)

/-- A call of a leaf: where in the program, on which value, what it comes to and its effects. -/
structure Call where
  place : List Nat
  input : Value
  output : Value
  history : List Action

/-- What an operation comes to in a run, its effects, and the calls of leaves in it. -/
structure Course where
  output : Value
  history : List Action := []
  calls : List Call := []

namespace Course

/-- Comes to a value without doing anything. -/
def still (v : Value) : Course where
  output := v

/-- One course after the other. -/
def followedBy (c d : Course) : Course where
  output := d.output
  history := c.history ++ d.history
  calls := c.calls ++ d.calls

/-- Takes the courses of some branches, which take turns, and reduces their values, which arrive in
    any order. -/
def Gathers (reduce : List Value → Value) (bs : List Course) (c : Course) : Prop :=
  ∃ vs, vs.Perm (bs.map output) ∧ c.output = reduce vs ∧
    Interleaves (bs.map history) c.history ∧ c.calls = bs.flatMap calls

end Course

/-- Like `typed`: passes sentinels on, and refuses values of other kinds. -/
def Called {α : Type} (name : String) (accept : Value → Option α) (call : α → Course → Prop)
    (v : Value) : Course → Prop :=
  if v.isSentinel then (· = .still v)
  else match accept v with
    | some a => call a
    | none => (· = .still (Value.unexpected name v))

namespace Operation

mutual

/-- Whether the operation at a place of its program may take this course on a value. -/
def MayTake (s : Scope) (place : List Nat) : Operation → Value → Course → Prop
  | identity, v, c => c = .still v
  | discard, v, c => c = .still (if v.isSentinel then v else .void)
  | leaf l, v, c =>
    Traces (l.apply s v) c.output c.history ∧ c.calls = [⟨place, v, c.output, c.history⟩]
  | compose ops, v, c => SequenceMayTake s place 0 ops v c
  | lookupParallel ops, v, c =>
    Called "dns_lookup_parallel" Value.lookup? (fun d c =>
      ∃ bs, BranchesMayTake s place 0 ops (.lookup d) bs ∧ c.Gathers (mergeLookups d) bs) v c
  | measureDomains ops, v, c =>
    Called "measure_multiple_domains" Value.void? (fun _ c =>
      ∃ bs, BranchesMayTake s place 0 ops .void bs ∧ c.Gathers exceptionOrVoid bs) v c
  | measureEndpoints ops, v, c =>
    Called "measure_multiple_endpoints" Value.resolved? (fun r c =>
      ∃ bs, BranchesMayTake s place 0 ops (.resolved r) bs ∧ c.Gathers exceptionOrVoid bs) v c
  | endpointPipeline ops, v, c =>
    Called "new_endpoint_pipeline" Value.endpoints? (fun es c =>
      ∃ bs, List.Forall₂ (fun e b => SequenceMayTake s place 0 ops (.endpoint e) b) es bs ∧
        c.Gathers exceptionOrVoid bs) v c
  | custom f, v, c => Traces (f s v) c.output c.history ∧ c.calls = []

/-- One operation after the other; they are the children of a place from a number on. -/
def SequenceMayTake (s : Scope) (place : List Nat) :
    Nat → List Operation → Value → Course → Prop
  | _, [], v, c => c = .still v
  | i, op :: ops, v, c =>
    ∃ a b, MayTake s (place ++ [i]) op v a ∧ SequenceMayTake s place (i + 1) ops a.output b ∧
      c = a.followedBy b

/-- Each of the operations on a copy of the value. -/
def BranchesMayTake (s : Scope) (place : List Nat) :
    Nat → List Operation → Value → List Course → Prop
  | _, [], _, bs => bs = []
  | i, op :: ops, v, bs =>
    ∃ b rest, MayTake s (place ++ [i]) op v b ∧ BranchesMayTake s place (i + 1) ops v rest ∧
      bs = b :: rest

end

/-! ## Every run takes a course -/

/-- A course with this value and history. -/
def HasCourse (P : Course → Prop) (w : Value) (h : List Action) : Prop :=
  ∃ c, P c ∧ c.output = w ∧ c.history = h

theorem hasCourse_still (v : Value) {w : Value} {h : List Action} (hdone : Traces (.done v) w h) :
    HasCourse (· = .still v) w h := by
  obtain ⟨rfl, rfl⟩ := hdone.of_done
  exact ⟨.still w, rfl, rfl, rfl⟩

theorem hasCourse_typed {α : Type} {name : String} {accept : Value → Option α}
    {call : α → Activity} {P : α → Course → Prop} {v w : Value} {h : List Action}
    (hcall : ∀ a, Traces (call a) w h → HasCourse (P a) w h)
    (htyped : Traces (typed name accept call v) w h) :
    HasCourse (Called name accept P v) w h := by
  rw [typed] at htyped
  rw [Called]
  by_cases hv : v.isSentinel = true
  · rw [if_pos hv] at htyped ⊢
    exact hasCourse_still v htyped
  · rw [if_neg hv] at htyped ⊢
    cases ha : accept v with
    | some a =>
      rw [ha] at htyped
      exact hcall a htyped
    | none =>
      rw [ha] at htyped
      exact hasCourse_still _ htyped

/-- The branches of a pool come to an end, and what remains is to reduce their values. -/
theorem hasCourse_all {width : Nat} {ps : List Activity} {reduce : List Value → Value}
    {P : List Course → Prop} {w : Value} {h : List Action}
    (hbranches : ∀ ends : List (Value × List Action),
      List.Forall₂ (fun p e => Traces p e.1 e.2) ps ends →
        ∃ bs, P bs ∧ bs.map (fun b => (b.output, b.history)) = ends)
    (hall : Traces (Activity.all width ps fun vs => .done (reduce vs)) w h) :
    HasCourse (fun c => ∃ bs, P bs ∧ c.Gathers reduce bs) w h := by
  cases hall with
  | @pool _ _ _ _ _ ends vs k _ _ hends hk hvs hnext =>
    cases hnext with
    | done _ =>
      obtain ⟨bs, hP, rfl⟩ := hbranches ends hends
      refine ⟨⟨reduce vs, k, bs.flatMap Course.calls⟩, ⟨bs, hP, vs, ?_, rfl, ?_, rfl⟩, rfl, ?_⟩
      · simpa [Function.comp_def] using hvs
      · simpa [Function.comp_def] using hk
      · simp

mutual

theorem hasCourse (s : Scope) : ∀ (op : Operation) (place : List Nat) (v w : Value)
    (h : List Action), Traces (op.apply s v) w h → HasCourse (op.MayTake s place v) w h
  | identity, place, v, w, h, htraces => by
    rw [apply] at htraces
    exact hasCourse_still v htraces
  | discard, place, v, w, h, htraces => by
    rw [apply] at htraces
    exact hasCourse_still _ htraces
  | leaf l, place, v, w, h, htraces => by
    rw [apply] at htraces
    exact ⟨⟨w, h, [⟨place, v, w, h⟩]⟩, ⟨htraces, rfl⟩, rfl, rfl⟩
  | compose ops, place, v, w, h, htraces => by
    rw [apply] at htraces
    exact sequenceHasCourse s ops place 0 v w h htraces
  | lookupParallel ops, place, v, w, h, htraces => by
    rw [apply] at htraces
    exact hasCourse_typed (fun d hd => hasCourse_all
      (fun ends hends => branchesHaveCourses s ops place 0 _ ends hends) hd) htraces
  | measureDomains ops, place, v, w, h, htraces => by
    rw [apply] at htraces
    exact hasCourse_typed (fun _ hd => hasCourse_all
      (fun ends hends => branchesHaveCourses s ops place 0 _ ends hends) hd) htraces
  | measureEndpoints ops, place, v, w, h, htraces => by
    rw [apply] at htraces
    exact hasCourse_typed (fun r hr => hasCourse_all
      (fun ends hends => branchesHaveCourses s ops place 0 _ ends hends) hr) htraces
  | endpointPipeline ops, place, v, w, h, htraces => by
    rw [apply] at htraces
    refine hasCourse_typed (fun es hes => hasCourse_all (fun ends hends => ?_) hes) htraces
    rw [List.forall₂_map_left_iff] at hends
    -- All branches are at one place: they run the same sequence, each on its endpoint.
    clear hes htraces
    induction hends with
    | nil => exact ⟨[], .nil, rfl⟩
    | @cons e end_ es ends he _ ih =>
      obtain ⟨b, hb, hout, hhist⟩ := sequenceHasCourse s ops place 0 (.endpoint e) _ _ he
      obtain ⟨bs, hbs, hends⟩ := ih
      refine ⟨b :: bs, .cons hb hbs, ?_⟩
      rw [List.map_cons, hout, hhist, hends]
  | custom f, place, v, w, h, htraces => by
    rw [apply] at htraces
    exact ⟨⟨w, h, []⟩, ⟨htraces, rfl⟩, rfl, rfl⟩

theorem sequenceHasCourse (s : Scope) : ∀ (ops : List Operation) (place : List Nat) (i : Nat)
    (v w : Value) (h : List Action), Traces (applyAll s ops v) w h →
      HasCourse (SequenceMayTake s place i ops v) w h
  | [], place, i, v, w, h, htraces => by
    rw [applyAll] at htraces
    exact hasCourse_still v htraces
  | op :: ops, place, i, v, w, h, htraces => by
    rw [applyAll] at htraces
    obtain ⟨u, h₁, h₂, hop, hops, rfl⟩ := htraces.of_bind
    obtain ⟨a, ha, rfl, rfl⟩ := hasCourse s op (place ++ [i]) v u h₁ hop
    obtain ⟨b, hb, rfl, rfl⟩ := sequenceHasCourse s ops place (i + 1) a.output w h₂ hops
    exact ⟨a.followedBy b, ⟨a, b, ha, hb, rfl⟩, rfl, rfl⟩

theorem branchesHaveCourses (s : Scope) : ∀ (ops : List Operation) (place : List Nat) (i : Nat)
    (v : Value) (ends : List (Value × List Action)),
      List.Forall₂ (fun p e => Traces p e.1 e.2) (branches s ops v) ends →
        ∃ bs, BranchesMayTake s place i ops v bs ∧
          bs.map (fun b => (b.output, b.history)) = ends
  | [], place, i, v, ends, hends => by
    rw [branches] at hends
    cases hends
    exact ⟨[], rfl, rfl⟩
  | op :: ops, place, i, v, ends, hends => by
    rw [branches] at hends
    cases hends with
    | @cons _ e _ ends he hrest =>
      obtain ⟨b, hb, hout, hhist⟩ := hasCourse s op (place ++ [i]) v e.1 e.2 he
      obtain ⟨bs, hbs, hends⟩ := branchesHaveCourses s ops place (i + 1) v ends hrest
      refine ⟨b :: bs, ⟨b, bs, hb, hbs, rfl⟩, ?_⟩
      rw [List.map_cons, hout, hhist, hends]

end

/-- Whatever a run of an operation comes to, it takes a course of the operation. -/
theorem exists_course {s : Scope} {op : Operation} {v w : Value} {h : List Action}
    (hrun : (op.apply s v).Run h (.done w)) (place : List Nat) :
    ∃ calls, op.MayTake s place v ⟨w, h, calls⟩ := by
  obtain ⟨c, hc, rfl, rfl⟩ := hasCourse s op place v w h (Activity.traces_of_run hrun)
  exact ⟨c.calls, hc⟩

end Operation

end NetProbe
