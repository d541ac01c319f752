import Mathlib.Data.Multiset.Bind
import NetProbe.Proofs.Operation.Courses
import NetProbe.Proofs.Run.Scheduler
import NetProbe.Proofs.Run.Tally
import NetProbe.Report
set_option autoImplicit false

/-! # Evaluations

A run of an evaluation that came to an end consists of calls of leaves, `Operation.Evaluates`, and
so does everything that the scheduler makes of one (`Surroundings.exists_run_of_evaluate`). The
deeds of the run are those of its calls (`Operation.Evaluates.tally_eq`), so what the report of a
fresh session says is known from the calls (`Operation.Evaluates.recorded_eq`). -/

namespace NetProbe

/-! ## Reports -/

namespace Session

variable {σ : Session} {v : Value}

@[simp] theorem observations_report :
    (σ.report v).1.observations = Observations.reduce σ.saved := rfl

/-- A report of everything that was saved since the session was fresh. -/
theorem observations_report_fresh (h : List Action) (v : Value) :
    ((({} : Session).after h).report v).1.observations = recorded h := by
  rw [observations_report, saved_after]
  rfl

/-- Closing things changes nothing but slots, and the list of what was closed. -/
theorem exists_foldl_closeOne (cs : List Closer) (σ : Session) :
    ∃ slots, cs.foldl closeOne σ = { σ with slots, closings := σ.closings ++ cs } := by
  induction cs generalizing σ with
  | nil => exact ⟨σ.slots, by simp⟩
  | cons c cs ih =>
    obtain ⟨slots, hrest⟩ := ih (σ.closeOne c)
    rw [List.foldl_cons, hrest, List.append_cons]
    cases c <;> exact ⟨slots, rfl⟩

theorem traces_report (σ : Session) (v : Value) : (σ.report v).2.traces = σ.traces := by
  obtain ⟨slots, hclose⟩ :=
    exists_foldl_closeOne σ.closers { σ with saved := [], closers := [] }
  show (σ.closers.foldl closeOne { σ with saved := [], closers := [] }).traces = _
  rw [hclose]

end Session

/-! ## Calls -/

namespace Operation

/-- The evaluation may come to this value with this history, through these calls of leaves. -/
def Evaluates (op : Operation) (s : Scope) (v : Value) (h : List Action) (calls : List Call) :
    Prop :=
  ∃ now k, h = ⟨.now, now⟩ :: k ∧
    op.MayTake { s with context := evaluationContext s now } [] .void ⟨v, k, calls⟩

variable {op : Operation} {s : Scope} {v : Value} {h : List Action} {calls : List Call} {n : Node}

/-- Every run of an evaluation that came to an end consists of calls. -/
theorem exists_evaluates (hrun : (op.evaluation s).Run h (.done v)) :
    ∃ calls, op.Evaluates s v h calls := by
  have htraces := Activity.traces_of_run hrun
  rw [evaluation] at htraces
  cases htraces with
  | @perform _ _ now _ k hnext =>
    obtain ⟨c, hc, rfl, rfl⟩ := hasCourse _ op [] .void v k hnext
    exact ⟨c.calls, now, c.history, rfl, hc⟩

namespace Evaluates

/-- An invariant holds of the course of an evaluation; looking at the clock first is no deed. -/
theorem good {Good : Value → Course → Prop} (heval : op.Evaluates s v h calls)
    (hop : (Registry.standard.compile n).result = .ok op) (hGood : Course.Invariant Good) :
    ∃ k, deeds k = deeds h ∧ Good .void ⟨v, k, calls⟩ := by
  obtain ⟨now, k, rfl, hcourse⟩ := heval
  exact ⟨k, rfl, good_of_mayTake hGood hop hcourse⟩

variable (heval : op.Evaluates s v h calls) (hop : (Registry.standard.compile n).result = .ok op)

include heval hop

theorem did {call : Call} (hcall : call ∈ calls) : call.Did := by
  obtain ⟨k, -, -, hdid⟩ := heval.good hop Course.invariant_accounted
  exact hdid call hcall

/-- The deeds of an evaluation are those of its calls. -/
theorem perm_deeds : (deeds h).Perm (calls.flatMap fun call => deeds call.history) := by
  obtain ⟨k, hk, hperm, -⟩ := heval.good hop Course.invariant_accounted
  have hdeeds : deeds (calls.flatMap Call.history) = calls.flatMap fun c => deeds c.history :=
    List.filterMap_flatMap
  rw [← hk, ← hdeeds]
  exact hperm.filterMap Action.deed?

/-- What an evaluation does, some call does. -/
theorem mem_deeds_iff {d : Deed} : d ∈ deeds h ↔ ∃ call ∈ calls, d ∈ deeds call.history := by
  rw [(heval.perm_deeds hop).mem_iff, List.mem_flatMap]

theorem tally_eq {M : Type} [AddCommMonoid M] {F : List Deed → M} (hF : Tally F) :
    F (deeds h) = (calls.map fun call => F (deeds call.history)).sum := by
  rw [hF.of_perm (heval.perm_deeds hop), hF.flatMap]

/-- The calls of an evaluation have saved what it records. -/
theorem recorded_eq {M : Type} [AddCommMonoid M] {f : Observations → M}
    (hf : Observations.Additive f) :
    f (recorded h) = (calls.map fun call => f (recorded call.history)).sum := by
  rw [recorded, heval.tally_eq hop hf.tally]
  rfl

theorem mem_recorded_iff {α : Type} {f : Observations → List α}
    (hf : Observations.Additive fun o => (↑(f o) : Multiset α)) {a : α} :
    a ∈ f (recorded h) ↔ ∃ call ∈ calls, a ∈ f (recorded call.history) := by
  rw [← Multiset.mem_coe, heval.recorded_eq hop hf]
  exact Multiset.mem_bind (s := (calls : Multiset Call))

end Evaluates

end Operation

/-! ## What the scheduler does -/

/-- The scope of an evaluation that starts at a moment. -/
def Scope.startingAt (s : Scope) (start : Time) : Scope :=
  { s with context := Operation.evaluationContext s start }

namespace Surroundings

variable {e : Surroundings} {moments : Nat} {s : Scope} {op : Operation} {w w' : World}
  {report : Report}

/-- What the scheduler reports, a run comes to whose effects it performs, from now on. -/
theorem exists_history_of_evaluate (h : e.evaluate moments s op w = some (report, w')) :
    ∃ rest v u, (op.evaluation s).Run (actions (⟨w.now, .now, w.now⟩ :: rest)) (.done v) ∧
      e.Tells w (⟨w.now, .now, w.now⟩ :: rest) u ∧ u.session.report v = (report, w'.session) := by
  rw [evaluate, Option.map_eq_some_iff] at h
  obtain ⟨⟨v, u⟩, hrun, hreport⟩ := h
  obtain ⟨rfl, rfl⟩ := Prod.mk.inj hreport
  have hrest : e.run moments (op.apply (s.startingAt w.now) .void) w = some (v, u) := hrun
  obtain ⟨rest, hsteps, htells⟩ := e.drives_of_run hrest
  exact ⟨rest, v, u, .head (.perform _ _ _) hsteps, .perform rfl htells, rfl⟩

/-- What the scheduler reports, a run comes to. -/
theorem exists_run_of_evaluate (h : e.evaluate moments s op w = some (report, w')) :
    ∃ h v, (op.evaluation s).Run h (.done v) ∧ w.session.Gives h ∧
      (w.session.after h).report v = (report, w'.session) := by
  obtain ⟨rest, v, u, hrun, htells, hreport⟩ := exists_history_of_evaluate h
  obtain ⟨hgives, hafter⟩ := htells.gives
  exact ⟨_, v, hrun, hgives, hafter ▸ hreport⟩

end Surroundings

/-- A network on which handshakes succeed, and requests are cut off. -/
def Surroundings.cutOff : Surroundings where
  network _
    | .connect _ => some (1, .ok ())
    | .secure _ _ => some (1, .ok {})
    | .fetch _ _ => some (1, .error (.system 104))
    | _ => none

end NetProbe
