import Permit.Constraint.Check
import Permit.Proofs.Outcome

namespace Permit

/-- The faults by which evaluations and checks tell what they have found. -/
inductive Fault.IsSignal : Fault → Prop where
  | rejected (errors : Value) : IsSignal (.rejected errors)
  | violation (v : Violation) : IsSignal (.violation v)

namespace Constraint

open Outcome

variable {rules : RuleSet} {args : List String} {v : Value} {fault : Fault}

/-- No rule itself ends the evaluation as one that is rejected with nothing to report. A
rule that answers, or fails for a reason of its own, does not. -/
def RuleSet.Answers (rules : RuleSet) : Prop :=
  ∀ name f, rules.find? name = some f → ∀ v args, f v args ≠ .error (.rejected .null)

/-- No rule itself ends in a fault. -/
def RuleSet.Avoids (rules : RuleSet) (fault : Fault) : Prop :=
  ∀ name f, rules.find? name = some f → ∀ v args, f v args ≠ .error fault

theorem exists_of_allListed {items : List Value} (failed : allListed args items = .error fault) :
    ∃ v ∈ items, isListed args v = .error fault := by
  induction items with
  | nil => cases failed
  | cons v rest ih =>
    rcases bind_eq_error_iff.mp failed with own | ⟨listed, _, failed⟩
    · exact ⟨v, List.mem_cons_self .., own⟩
    · split at failed
      · obtain ⟨other, inside, own⟩ := ih failed
        exact ⟨other, List.mem_cons_of_mem _ inside, own⟩
      · cases failed

theorem exists_of_noneListed {items : List Value} (failed : noneListed args items = .error fault) :
    ∃ v ∈ items, isListed args v = .error fault := by
  induction items with
  | nil => cases failed
  | cons v rest ih =>
    rcases bind_eq_error_iff.mp failed with own | ⟨listed, _, failed⟩
    · exact ⟨v, List.mem_cons_self .., own⟩
    · split at failed
      · cases failed
      · obtain ⟨other, inside, own⟩ := ih failed
        exact ⟨other, List.mem_cons_of_mem _ inside, own⟩

section

variable (signal : fault.IsSignal)

include signal

theorem comparedText_ne_signal : comparedText v ≠ .error fault := by
  unfold comparedText
  split
  · rintro ⟨⟩
  · exact mapError_ne_error fun cause => by rintro rfl; cases signal

theorem isListed_ne_signal : isListed args v ≠ .error fault :=
  bind_ne_error (comparedText_ne_signal signal) fun text => by rintro ⟨⟩

theorem allListed_ne_signal {items : List Value} :
    allListed args items ≠ .error fault := by
  intro failed
  obtain ⟨v, _, own⟩ := exists_of_allListed failed
  exact isListed_ne_signal signal own

theorem noneListed_ne_signal {items : List Value} :
    noneListed args items ≠ .error fault := by
  intro failed
  obtain ⟨v, _, own⟩ := exists_of_noneListed failed
  exact isListed_ne_signal signal own

theorem number?_ne_signal : number? v ≠ .error fault := by
  unfold number?
  repeat' split
  all_goals rintro ⟨⟩ <;> cases signal

theorem numericArg_ne_signal {rule : String} :
    numericArg rule args ≠ .error fault := by
  unfold numericArg
  repeat' split
  all_goals rintro ⟨⟩ <;> cases signal

theorem checkLength_ne_signal {rule : String}
    {holds : Number.Binary64 → Number.Binary64 → Bool} :
    checkLength rule holds args v ≠ .error fault := by
  unfold checkLength
  split
  · rintro ⟨⟩
  · exact bind_ne_error (numericArg_ne_signal signal) fun bound => by rintro ⟨⟩

theorem checkNumber_ne_signal {rule : String}
    {holds : Number.Binary64 → Number.Binary64 → Bool} :
    checkNumber rule holds args v ≠ .error fault := by
  refine bind_ne_error (number?_ne_signal signal) fun found => ?_
  split
  · rintro ⟨⟩
  · exact bind_ne_error (numericArg_ne_signal signal) fun bound => by rintro ⟨⟩

theorem checkPattern_ne_signal : checkPattern args v ≠ .error fault := by
  unfold checkPattern
  repeat' split
  all_goals rintro ⟨⟩ <;> cases signal

/-- Whatever is wrong with a rule known from the start, it does not signal. -/
theorem Check.passes_ne_signal (check : Check) :
    check.passes args v ≠ .error fault := by
  cases check with
  | anything | integer | flag | mapping | sequence =>
    simp only [Check.passes]
    rintro ⟨⟩
  | string =>
    simp only [Check.passes]
    split
    all_goals rintro ⟨⟩
  | number =>
    simp only [Check.passes]
    exact bind_ne_error (number?_ne_signal signal) fun found => by rintro ⟨⟩
  | oneOf =>
    simp only [Check.passes]
    split
    · exact allListed_ne_signal signal
    · rintro ⟨⟩
    · exact isListed_ne_signal signal
  | noneOf =>
    simp only [Check.passes]
    split
    · exact noneListed_ne_signal signal
    · exact bind_ne_error (isListed_ne_signal signal) fun listed => by rintro ⟨⟩
  | atLeast | atMost =>
    simp only [Check.passes]
    exact checkLength_ne_signal signal
  | above | below =>
    simp only [Check.passes]
    exact checkNumber_ne_signal signal
  | pattern =>
    simp only [Check.passes]
    exact checkPattern_ne_signal signal
  | equals =>
    simp only [Check.passes]
    exact bind_ne_error (comparedText_ne_signal signal) fun text => by rintro ⟨⟩

theorem Check.toRule_ne_signal (check : Check) {given : Option Value} :
    check.toRule given args ≠ .error fault := by
  cases given with
  | none => rintro ⟨⟩
  | some v =>
    intro failed
    cases outcome : check.passes args v with
    | ok passed =>
      simp [Check.toRule, outcome, Except.map] at failed
    | error fault =>
      simp only [Check.toRule, outcome, Except.map, Except.error.injEq] at failed
      exact check.passes_ne_signal signal (failed ▸ outcome)

/-- The rules known from the start do not signal. -/
theorem RuleSet.avoids_builtIn : builtIn.Avoids fault := by
  intro name f found v args
  have member := Keyed.mem_of_find? found
  simp only [builtIn, List.mem_append, List.mem_cons, List.mem_map, List.not_mem_nil, or_false,
    Prod.mk.injEq] at member
  rcases member with (⟨_, rfl⟩ | ⟨_, rfl⟩) | ⟨check, _, _, rfl⟩
  · exact Check.toRule_ne_signal signal _
  · rintro ⟨⟩
  · exact Check.toRule_ne_signal signal _

end

theorem RuleSet.answers_builtIn : builtIn.Answers := avoids_builtIn (.rejected .null)

/-- Registering a rule that does not end in a fault leaves a set of rules that do not. -/
theorem RuleSet.Avoids.register (avoids : rules.Avoids fault) {rule : String} {f : RuleFunction}
    (own : ∀ v args, f v args ≠ .error fault) : (rules.register rule f).Avoids fault := by
  intro name g found
  rw [RuleSet.find?, RuleSet.register, Keyed.find?_put] at found
  split at found
  next =>
    cases found
    exact own
  next => exact avoids name g found

/-- With rules besides that do not signal, the rules known from the start still do not. -/
theorem RuleSet.avoids_withRules (signal : fault.IsSignal) {custom : List (String × RuleFunction)}
    (own : ∀ entry ∈ custom, ∀ v args, entry.2 v args ≠ .error fault) :
    (withRules custom).Avoids fault := by
  have all : ∀ {rules : RuleSet}, rules.Avoids fault →
      RuleSet.Avoids (Keyed.putAll rules custom) fault := by
    induction custom with
    | nil => exact fun avoids => avoids
    | cons entry rest ih =>
      intro rules avoids
      have first : (rules.register entry.1 entry.2).Avoids fault :=
        avoids.register (own entry (List.mem_cons_self ..))
      exact ih (fun entry inside => own entry (List.mem_cons_of_mem _ inside)) first
  exact all (avoids_builtIn signal)

end Constraint
end Permit
