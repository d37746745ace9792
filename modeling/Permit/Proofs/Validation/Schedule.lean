import Permit.Proofs.Validation

/-!
What holds of a validation in the hands of several callers, under every schedule of events.

* `run_as_events`: a run on its own is two events, with the evaluator at work in between;
* `stage_of_schedule`: a validation is new, waits for its evaluator, or is settled, and the
  events so far say which;
* `evaluator_called_once`: so the evaluator is called once at most, after the validation is
  marked, and what can be read once the call has ended stays as it is.
-/
namespace Permit.Validation

open Constraint (Extent)
open Outcome

variable {inquiry : Inquiry} {w w' : Shared} {events earlier later : List Event} {extent : Extent}

theorem Schedule.append (first : Schedule w earlier w') {v : Shared}
    (second : Schedule w' later v) : Schedule w (earlier ++ later) v := by
  induction second with
  | start =>
    rw [List.append_nil]
    exact first
  | next _ step ih =>
    rw [← List.append_assoc]
    exact ih.next step

/-! ### One run -/

/-- A run is begun, the evaluator works, and its end is taken in; a run that is refused does
not come to the evaluator. -/
theorem run_as_events (evaluator : Evaluator) (extent : Extent) (v : Validation) (s : Session) :
    (∃ misuse, ({ validation := v } : Shared).step (.run extent) =
        some (.refused misuse, { validation := v }) ∧
      run evaluator extent v s = ((.error (.misuse misuse), v), s)) ∨
    ∃ w w' result,
      ({ validation := v } : Shared).step (.run extent) = some (.waiting 0, w) ∧
      w.step (.ended 0 (((evaluator extent v.inquiry).outcome s).1)) = some (.returned result, w') ∧
      run evaluator extent v s =
        ((result, w'.validation), ((evaluator extent v.inquiry).outcome s).2) := by
  cases state : v.state with
  | executed =>
    have refused : v.start = .error .runAgain := by rw [start, state]
    refine .inl ⟨.runAgain, by rw [Shared.step, refused], ?_⟩
    rw [run, refused]
    rfl
  | pending =>
    have marked : v.start = .ok { v with state := .executed } := by rw [start, state]
    refine .inr ⟨_, _, _, by rw [Shared.step, marked]; rfl, rfl, ?_⟩
    rw [run, marked]
    rfl

/-! ### What can be read -/

/-- Reading what a validation reports is a misuse just while it is pending. -/
theorem report_misuse_iff {v : Validation} {misuse : Misuse} :
    v.report = .error (.misuse misuse) ↔ v.state = .pending ∧ misuse = .readTooEarly := by
  constructor
  · intro failed
    rcases fault_of_report failed with ⟨pending, same⟩ | ⟨_, other⟩ | ⟨_, other⟩
    · exact ⟨pending, Fault.misuse.inj same⟩
    · cases other
    · cases other
  · rintro ⟨pending, rfl⟩
    rw [report, pending]

/-! ### Schedules -/

def Begun (events : List Event) : Prop := ∃ extent, Event.run extent ∈ events

def Concluded (events : List Event) : Prop := ∃ call outcome, Event.ended call outcome ∈ events

/-- What a schedule can make of a new validation. -/
inductive Stage (inquiry : Inquiry) : List Event → Shared → Prop where
  | fresh {events : List Event} : ¬ Begun events → ¬ Concluded events →
      Stage inquiry events (.new inquiry)
  | waiting {events : List Event} (extent : Extent) : Begun events → ¬ Concluded events →
      Stage inquiry events
        { validation := { inquiry, state := .executed }
          calls := [⟨extent, .executed⟩]
          unfinished := [0] }
  | settled {events : List Event} (extent : Extent) (errors : Value) : Begun events →
      Concluded events →
      Stage inquiry events
        { validation := { inquiry, state := .executed, errors }
          calls := [⟨extent, .executed⟩] }

theorem begun_concat {e : Event} :
    Begun (events ++ [e]) ↔ Begun events ∨ ∃ extent, e = .run extent := by
  simp only [Begun, List.mem_append, List.mem_singleton, exists_or]
  exact or_congr Iff.rfl (exists_congr fun _ => eq_comm)

theorem concluded_concat {e : Event} :
    Concluded (events ++ [e]) ↔ Concluded events ∨ ∃ call outcome, e = .ended call outcome := by
  simp only [Concluded, List.mem_append, List.mem_singleton, exists_or]
  exact or_congr Iff.rfl (exists_congr fun _ => exists_congr fun _ => eq_comm)

/-- Whatever the evaluator ends with, at most the errors of a validation change. -/
theorem conclude_eq (v : Validation) (outcome : Except Fault Unit) :
    ∃ errors, (v.conclude outcome).2 = { v with errors } := by
  unfold conclude
  split
  next errors => exact ⟨errors, rfl⟩
  next => exact ⟨v.errors, rfl⟩
  next => exact ⟨v.errors, rfl⟩

/-- **One event** takes a validation from its stage to the next one, or leaves it. -/
theorem Stage.step {e : Event} {seen : Seen} (stage : Stage inquiry events w)
    (step : w.step e = some (seen, w')) : Stage inquiry (events ++ [e]) w' := by
  cases stage with
  | fresh notBegun notConcluded =>
    cases e with
    | run extent =>
      cases step
      refine .waiting extent (begun_concat.mpr (.inr ⟨extent, rfl⟩)) ?_
      rw [concluded_concat]
      simpa using notConcluded
    | ended number outcome => cases step
    | readFails | readReport | readState =>
      cases step
      refine .fresh ?_ ?_
      · rw [begun_concat]
        simpa using notBegun
      · rw [concluded_concat]
        simpa using notConcluded
  | waiting extent begun notConcluded =>
    have still : Begun (events ++ [e]) := begun_concat.mpr (.inl begun)
    cases e with
    | ended number outcome =>
      simp only [Shared.step, List.mem_singleton] at step
      split at step
      next same =>
        subst same
        obtain ⟨errors, concluded⟩ := conclude_eq { inquiry, state := .executed } outcome
        simp only [concluded, Option.some.injEq, Prod.mk.injEq] at step
        rw [← step.2]
        exact .settled extent errors still (concluded_concat.mpr (.inr ⟨0, outcome, rfl⟩))
      next => cases step
    | run | readFails | readReport | readState =>
      cases step
      refine .waiting extent still ?_
      rw [concluded_concat]
      simpa using notConcluded
  | settled extent errors begun concluded =>
    have still : Begun (events ++ [e]) := begun_concat.mpr (.inl begun)
    have done : Concluded (events ++ [e]) := concluded_concat.mpr (.inl concluded)
    cases e with
    | ended number outcome => cases step
    | run | readFails | readReport | readState =>
      cases step
      exact .settled extent errors still done

theorem stage_of_schedule (schedule : Schedule (.new inquiry) events w) :
    Stage inquiry events w := by
  induction schedule with
  | start => exact .fresh (by simp [Begun]) (by simp [Concluded])
  | next _ step ih => exact ih.step step

/-- Nothing happens any more to a validation whose evaluator has ended. -/
theorem Stage.settled_step {e : Event} {seen : Seen} (stage : Stage inquiry events w)
    (concluded : Concluded events) (step : w.step e = some (seen, w')) : w' = w := by
  cases stage with
  | fresh _ notConcluded => exact absurd concluded notConcluded
  | waiting _ _ notConcluded => exact absurd concluded notConcluded
  | settled extent errors =>
    cases e with
    | ended => cases step
    | run | readFails | readReport | readState =>
      cases step
      rfl

theorem Stage.settled_schedule (stage : Stage inquiry earlier w) (concluded : Concluded earlier)
    (schedule : Schedule w later w') : w' = w := by
  induction schedule with
  | start => rfl
  | next _ step ih =>
    subst ih
    exact stage.settled_step concluded step

/-- **Once at most.** However runs, reads and the ends of evaluators follow each other, the
evaluator is called once at most, by the first run and after the validation is marked; it
stays marked, every later run is refused and changes nothing, and so is a reading of the
report while the validation is pending and never after; and once the evaluator has ended,
what can be read does not change. -/
theorem evaluator_called_once (before : Schedule (.new inquiry) earlier w)
    (after : Schedule w later w') :
    w'.calls.length ≤ 1 ∧ (∀ call ∈ w'.calls, call.found = .executed) ∧
    (w.calls = [] ↔ ¬ Begun earlier) ∧
    (w.validation.state = .executed ↔ Begun earlier) ∧
    (w.validation.state = .executed → w'.validation.state = .executed) ∧
    (¬ Begun earlier → ∀ extent, ∃ v, w.step (.run extent) = some (.waiting 0, v) ∧
      v.validation.state = .executed ∧ v.calls = [⟨extent, .executed⟩]) ∧
    (Begun earlier → ∀ extent, w.step (.run extent) = some (.refused .runAgain, w)) ∧
    ((∃ misuse, w.step .readReport = some (.report (.error (.misuse misuse)), w)) ↔
      w.validation.state = .pending) ∧
    (Concluded earlier → w'.validation.fails = w.validation.fails ∧
      w'.validation.report = w.validation.report) := by
  have now := stage_of_schedule before
  have last := stage_of_schedule (before.append after)
  have marked {events : List Event} {v : Shared} (stage : Stage inquiry events v) :
      v.validation.state = .executed ↔ Begun events := by
    cases stage with
    | fresh notBegun => exact iff_of_false (by simp [Shared.new]) notBegun
    | waiting _ begun | settled _ _ begun => exact iff_of_true rfl begun
  have grows (begun : Begun earlier) : Begun (earlier ++ later) := by
    obtain ⟨extent, inside⟩ := begun
    exact ⟨extent, List.mem_append_left _ inside⟩
  refine ⟨?_, ?_, ?_, marked now, ?_, ?_, ?_, ?_, ?_⟩
  · cases last with
    | fresh => exact Nat.zero_le 1
    | waiting | settled => exact Nat.le_refl 1
  · cases last with
    | fresh => simp [Shared.new]
    | waiting | settled => simp
  · cases now with
    | fresh notBegun => exact iff_of_true rfl notBegun
    | waiting _ begun | settled _ _ begun => exact iff_of_false (by simp) (not_not_intro begun)
  · intro executed
    exact (marked last).mpr (grows ((marked now).mp executed))
  · intro notBegun extent
    cases now with
    | fresh => exact ⟨_, rfl, rfl, rfl⟩
    | waiting _ begun | settled _ _ begun => exact absurd begun notBegun
  · intro begun extent
    cases now with
    | fresh notBegun => exact absurd begun notBegun
    | waiting | settled => rfl
  · simp only [Shared.step, Option.some.injEq, Prod.mk.injEq, Seen.report.injEq, and_true,
      report_misuse_iff, exists_and_left, exists_eq, and_true]
  · intro concluded
    rw [now.settled_schedule concluded after]
    exact ⟨rfl, rfl⟩

/-- Two runs at a time, the second one begun while the evaluator is at work for the first. -/
theorem evaluator_called_once_two_runs :
    ∃ w w', Schedule (.new { data := .null, rules := .map [] })
        [.run .all, .readFails, .run .first, .ended 0 (.error (.rejected (.list [])))] w ∧
      Schedule w [.run .first, .readReport] w' ∧
      w'.calls = [⟨.all, .executed⟩] ∧ w'.validation.fails = true ∧
      w.step (.run .first) = some (.refused .runAgain, w) ∧
      w'.validation.report = w.validation.report := by
  let inquiry : Inquiry := { data := .null, rules := .map [] }
  let settled : Shared :=
    { validation := { inquiry, state := .executed, errors := .list [] }
      calls := [⟨.all, .executed⟩] }
  have both : Schedule (.new inquiry) ([] ++ [.run .all] ++ [.readFails] ++ [.run .first])
      { validation := { inquiry, state := .executed }
        calls := [⟨.all, .executed⟩]
        unfinished := [0] } := ((Schedule.start.next rfl).next rfl).next rfl
  have before : Schedule (.new inquiry)
      [.run .all, .readFails, .run .first, .ended 0 (.error (.rejected (.list [])))] settled :=
    both.next rfl
  have after : Schedule settled ([] ++ [.run .first] ++ [.readReport]) settled :=
    (Schedule.start.next rfl).next rfl
  obtain ⟨-, -, -, -, -, -, refused, -, same⟩ := evaluator_called_once before after
  have begun : Begun [.run .all, .readFails, .run .first,
      .ended 0 (.error (.rejected (.list [])))] := ⟨.all, by simp⟩
  have concluded : Concluded [.run .all, .readFails, .run .first,
      .ended 0 (.error (.rejected (.list [])))] := ⟨0, .error (.rejected (.list [])), by simp⟩
  exact ⟨settled, settled, before, after, rfl, rfl, refused begun .first, (same concluded).2⟩

end Permit.Validation
