import Permit.Proofs.Session.Answering
import Permit.Validation

namespace Permit

namespace Counter

def check? : Counter → Option String
  | .authorizations check _ => some check
  | .rejectedFields check => some check
  | .compilations _ => none
  | .projections _ => none

theorem raise_of_check?_ne {c k : Counter} {amount : Nat} (other : c.check? ≠ k.check?) :
    c.raise amount k = 0 := by
  refine if_neg ?_
  rintro rfl
  exact other rfl

end Counter

namespace Session

open Permit.Action

variable {s : Session} {n : Counter → Nat}

/-- Metrics are switched on, and the counters of requests have come to some counts. -/
structure Tallied (n : Counter → Nat) (s : Session) : Prop where
  enabled : s.settings.metricsEnabled = true
  counts : ∀ k, k.check?.isSome = true → s.metrics.count k = n k

/-- What leaves settings and metrics as they are counts nothing. -/
theorem Tallied.of_eq {s' : Session} (tallied : Tallied n s) (settings : s'.settings = s.settings)
    (metrics : s'.metrics = s.metrics) : Tallied n s' := by
  refine ⟨settings ▸ tallied.enabled, fun k requested => ?_⟩
  rw [metrics]
  exact tallied.counts k requested

theorem Tallied.measure {c : Counter} {amount : Nat} (tallied : Tallied n s) :
    Tallied (n + c.raise amount) ((Action.measure (·.add c amount)).run s).2 := by
  have changed : ((Action.measure (·.add c amount)).run s).2 =
      { s with metrics := s.metrics.add c amount } := by
    change (if s.settings.metricsEnabled then _ else s) = _
    rw [tallied.enabled]
    rfl
  rw [changed]
  refine ⟨tallied.enabled, fun k requested => ?_⟩
  rw [Metrics.count_add, tallied.counts k requested]
  rfl

/-- One record of an authorization adds one to the counter of its check and outcome, and the
fields it has rejected to that of its check. -/
theorem run_recordAuthorization (tallied : Tallied n s) (check outcome : String)
    (rejected : Nat) : ∃ s', (recordAuthorization check outcome rejected).run s = (.ok (), s') ∧
      Tallied (n + (Counter.authorizations check outcome).raise +
        (Counter.rejectedFields check).raise rejected) s' := by
  let counted := ((Action.count (.authorizations check outcome)).run s).2
  have first : Tallied (n + (Counter.authorizations check outcome).raise) counted :=
    tallied.measure
  have natural : ¬ (rejected : Int) < 0 := by omega
  have run : (recordAuthorization check outcome rejected).run s =
      (if 0 < (rejected : Int) then Action.measure (·.add (.rejectedFields check) rejected)
        else pure ()).run counted := by
    simp only [recordAuthorization, natural, decide_false, Bool.false_and]
    rfl
  rw [run]
  split
  · exact ⟨_, rfl, first.measure⟩
  · have none : rejected = 0 := by omega
    rw [none, Counter.raise_zero, add_zero]
    exact ⟨counted, rfl, first⟩

theorem run_recordAuthorization_no_fields (tallied : Tallied n s) (check outcome : String) :
    ∃ s', (recordAuthorization check outcome).run s = (.ok (), s') ∧
      Tallied (n + (Counter.authorizations check outcome).raise) s' := by
  obtain ⟨s', run, counted⟩ := run_recordAuthorization tallied check outcome 0
  rw [Counter.raise_zero, add_zero] at counted
  exact ⟨s', run, counted⟩

theorem compilationCount_of_request (settings : Settings) (status : String) {k : Counter}
    (requested : k.check?.isSome = true) : compilationCount settings status k = 0 := by
  unfold compilationCount
  split
  · refine Counter.raise_of_check?_ne fun same => ?_
    rw [← same] at requested
    cases requested
  · rfl

/-- What adds to the counts of compilations only counts nothing of requests. -/
theorem Tallied.of_compilation {s' : Session} {status : String} (tallied : Tallied n s)
    (keeps : Keeps s s')
    (counts : s'.metrics.count = s.metrics.count + compilationCount s.settings status) :
    Tallied n s' := by
  refine ⟨keeps.settings ▸ tallied.enabled, fun k requested => ?_⟩
  rw [counts, Pi.add_apply, compilationCount_of_request _ _ requested, Nat.add_zero]
  exact tallied.counts k requested

theorem tallied_log (e : Entry) : Maintains (log e) (Tallied n) :=
  maintains_modify fun _ tallied => tallied.of_eq rfl rfl

theorem tallied_setAttribute (name : String) (amount : Nat) :
    Maintains (setAttribute name amount) (Tallied n) :=
  maintains_modify fun _ tallied => tallied.of_eq rfl rfl

theorem tallied_compileItems (values : List Value) :
    Maintains (compileItems values) (Tallied n) := by
  refine maintains_compileItems fun tallied answered => ?_
  cases answered with
  | kept => exact tallied.of_eq rfl rfl
  | built _ _ keeps _ counts | failed _ _ keeps _ counts =>
    exact tallied.of_compilation keeps counts

theorem tallied_engine (extent : Constraint.Extent) (inquiry : Inquiry) :
    Maintains (Evaluator.engine extent inquiry) (Tallied n) := by
  refine maintains_get_bind fun s _ => (maintains_lift _).bind fun breaches => ?_
  split
  · exact maintains_pure _
  · exact (tallied_log _).bind fun _ => (maintains_lift _).bind fun _ => maintains_throw _

end Session

theorem Validation.maintains_execute {evaluator : Evaluator} {extent : Constraint.Extent}
    {inquiry : Inquiry} {inv : Session → Prop}
    (maintains : Action.Maintains (evaluator extent inquiry) inv) :
    Action.Maintains (execute evaluator extent inquiry) inv := maintains

end Permit
