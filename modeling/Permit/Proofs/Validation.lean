import Permit.Proofs.Constraint.Evaluation
import Permit.Proofs.Session.Ending
import Permit.Validation

namespace Permit

open Permit.Action Constraint Outcome

variable {s : Session} {evaluator : Evaluator} {extent : Extent} {inquiry : Inquiry}

namespace Evaluator

/-- What the evaluator ends with, given the breaches it finds. -/
def verdict (formatter : Option Formatter) (breaches : List Breach) : Except Fault Unit :=
  if breaches.isEmpty then .ok ()
  else do throw (.rejected (← errorsOf formatter breaches))

theorem ends_engine : Ends (engine extent inquiry) s
    (Constraint.evaluate s.rules inquiry.wordings extent inquiry.data inquiry.rules >>=
      verdict inquiry.formatter) := by
  simp only [engine, ends_get_bind]
  cases outcome :
      Constraint.evaluate s.rules inquiry.wordings extent inquiry.data inquiry.rules with
  | error fault => exact (ends_lift (.error fault)).bind_error
  | ok breaches =>
    refine (ends_lift (.ok breaches)).bind fun s₁ _ => ?_
    change Ends _ s₁ (verdict inquiry.formatter breaches)
    rw [verdict]
    split
    · exact ends_pure _
    · refine (ends_log _).bind fun s₂ _ => ?_
      cases told : errorsOf inquiry.formatter breaches with
      | error fault => exact (ends_lift (.error fault)).bind_error
      | ok errors => exact (ends_lift (.ok errors)).bind fun s₃ _ => ends_throw _

theorem outcome_engine (extent : Extent) (inquiry : Inquiry) (s : Session) :
    ((engine extent inquiry).run s).1 =
      (Constraint.evaluate s.rules inquiry.wordings extent inquiry.data inquiry.rules >>=
        verdict inquiry.formatter) :=
  (ends_engine.outcome_eq rfl).1

theorem error_of_evaluate {fault : Fault}
    (failed : Constraint.evaluate s.rules inquiry.wordings extent inquiry.data inquiry.rules =
      .error fault) : ((engine extent inquiry).run s).1 = .error fault := by
  rw [outcome_engine, failed]
  rfl

/-- The evaluator ends well just if the evaluation finds nothing. -/
theorem engine_ok_iff : ((engine extent inquiry).run s).1 = .ok () ↔
    Constraint.evaluate s.rules inquiry.wordings extent inquiry.data inquiry.rules = .ok [] := by
  rw [outcome_engine, bind_eq_ok_iff]
  constructor
  · rintro ⟨breaches, found, none⟩
    cases breaches with
    | nil => exact found
    | cons b rest =>
      obtain ⟨errors, _, rejects⟩ := bind_eq_ok_iff.mp none
      cases rejects
  · exact fun none => ⟨[], none, rfl⟩

/-- Without a formatter, the evaluator rejects with the breaches that the evaluation finds. -/
theorem rejected_of_evaluate {b : Breach} {rest : List Breach} (bare : inquiry.formatter = none)
    (found : Constraint.evaluate s.rules inquiry.wordings extent inquiry.data inquiry.rules =
      .ok (b :: rest)) :
    ((engine extent inquiry).run s).1 = .error (.rejected (breachList (b :: rest))) := by
  rw [outcome_engine, found, bare]
  rfl

/-- It rejects for no other reason, if the evaluation does not itself signal. -/
theorem evaluate_of_rejected {errors : Value} (bare : inquiry.formatter = none)
    (avoids : Constraint.evaluate s.rules inquiry.wordings extent inquiry.data inquiry.rules ≠
      .error (.rejected errors))
    (rejects : ((engine extent inquiry).run s).1 = .error (.rejected errors)) :
    ∃ b rest, Constraint.evaluate s.rules inquiry.wordings extent inquiry.data inquiry.rules =
      .ok (b :: rest) ∧ errors = breachList (b :: rest) := by
  rw [outcome_engine, bare] at rejects
  rcases bind_eq_error_iff.mp rejects with signals | ⟨breaches, found, rejects⟩
  · exact absurd signals avoids
  · cases breaches with
    | nil => cases rejects
    | cons b rest =>
      cases rejects
      exact ⟨b, rest, found, rfl⟩

/-- Without a formatter, a fault is that of the evaluation, or tells of breaches. -/
theorem fault_of_verdict {found : Except Fault (List Breach)} {fault : Fault}
    (failed : (found >>= verdict none) = .error fault) :
    found = .error fault ∨ ∃ errors, fault = .rejected errors := by
  rcases bind_eq_error_iff.mp failed with own | ⟨breaches, _, told⟩
  · exact .inl own
  · rw [verdict] at told
    split at told
    · cases told
    · cases told
      exact .inr ⟨_, rfl⟩

/-- The evaluator ends well only where there are no breaches, and where rules do no more
than answer, every other end of it tells what is wrong. -/
theorem evaluate_of_engine {data : Value} {entries : List (Value × Value)}
    (answers : s.rules.Answers) :
    Constraint.evaluate s.rules [] extent data (.map entries) = .ok [] ∨
      ∃ fault, fault ≠ .rejected .null ∧
        Ends (engine extent { data, rules := .map entries }) s (.error fault) := by
  have ends := @ends_engine s extent { data, rules := .map entries }
  cases outcome : Constraint.evaluate s.rules [] extent data (.map entries) with
  | error fault =>
    rw [outcome] at ends
    refine .inr ⟨fault, fun silent => ?_, ends⟩
    exact evaluate_ne_signal (.rejected .null) answers (silent ▸ outcome)
  | ok breaches =>
    rw [outcome] at ends
    cases breaches with
    | nil => exact .inl rfl
    | cons breach rest => exact .inr ⟨_, by rintro ⟨⟩, ends⟩

end Evaluator

namespace Validation

variable {outcome : Except Fault Unit}

theorem fault_of_messageOf {error : Value} {fault : Fault} (failed : messageOf error = .error fault) :
    (∃ cause, fault = .numeral cause) ∨ ∃ all, fault = .issues all := by
  rcases bind_eq_error_iff.mp failed with shown | ⟨shown, _, parts⟩
  · obtain ⟨cause, _, rfl⟩ := mapError_eq_error_iff.mp shown
    exact .inl ⟨cause, rfl⟩
  · obtain ⟨all, _, rfl⟩ := mapError_eq_error_iff.mp parts
    exact .inr ⟨all, rfl⟩

/-- A validation is read too early, or reading it fails at one of its errors. -/
theorem fault_of_report {v : Validation} {fault : Fault} (failed : v.report = .error fault) :
    (v.state = .pending ∧ fault = .misuse .readTooEarly) ∨
      (∃ cause, fault = .numeral cause) ∨ ∃ all, fault = .issues all := by
  cases state : v.state with
  | pending =>
    rw [report, state] at failed
    exact .inl ⟨rfl, (Except.error.inj failed).symm⟩
  | executed =>
    simp only [report, state] at failed
    repeat' split at failed
    · cases failed
    · cases failed
    · cases failed
    · obtain ⟨error, _, own⟩ := exists_of_mapM_eq_error (map_eq_error_iff.mp failed)
      exact .inr (fault_of_messageOf own)

/-- A validation ends with what it makes of the end of its evaluator. -/
theorem ends_execute (h : Ends (evaluator extent inquiry) s outcome) :
    let concluded := conclude { inquiry, state := .executed } outcome
    Ends (execute evaluator extent inquiry) s (concluded.1.map fun _ => concluded.2) := by
  obtain ⟨s', run, kept⟩ := h
  refine ⟨s', ?_, kept⟩
  have called : Action.outcome (evaluator extent inquiry) s = (outcome, s') := run
  simp only [execute, Validation.run, start, ExceptT.run, ExceptT.mk, bind, StateT.bind, called]
  rfl

theorem error_of_execute {fault : Fault} (h : Ends (evaluator extent inquiry) s outcome)
    (failed : ((execute evaluator extent inquiry).run s).1 = .error fault) :
    outcome = .error fault := by
  obtain ⟨s', run, _⟩ := ends_execute h
  rw [run] at failed
  cases outcome with
  | ok => cases failed
  | error cause =>
    cases cause with
    | rejected errors => cases failed
    | _ => exact congrArg Except.error (Except.error.inj failed)

/-- Where the evaluator tells what is wrong, a validation fails or ends with a fault. -/
theorem ends_execute_of_error {fault : Fault} (told : fault ≠ .rejected .null)
    (h : Ends (evaluator extent inquiry) s (.error fault)) :
    (∃ v : Validation, v.fails = true ∧ Ends (execute evaluator extent inquiry) s (.ok v)) ∨
      Ends (execute evaluator extent inquiry) s (.error fault) := by
  have ends := ends_execute h
  cases fault with
  | rejected errors =>
    refine .inl ⟨_, ?_, ends⟩
    cases errors with
    | null => exact absurd rfl told
    | _ => rfl
  | _ => exact .inr ends

end Validation
end Permit
