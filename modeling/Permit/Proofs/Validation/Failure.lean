import Permit.Proofs.Constraint.Rewording
import Permit.Proofs.Validation

/-!
When a validation fails. A validation keeps the errors that its evaluator reports, and fails
if it keeps any but null: so it fails just if something other than null is reported
(`fails_iff_reported`). For the evaluator that knows the registered rules this is whether
rules are broken, however the breaches are worded and formatted (`fails_engine`), but for a
formatter that leaves nothing of them: `fails_overlooks_null`.
-/
namespace Permit.Validation

open Permit.Action Constraint Evaluator Outcome

variable {s : Session} {evaluator : Evaluator} {extent : Extent} {inquiry : Inquiry}

theorem fails_iff {v : Validation} : v.fails = true ↔ v.errors ≠ .null := by
  unfold fails
  split
  next null => simp [null]
  next some => simpa using some

/-- A run of a new validation is what it makes of the end of its evaluator. -/
theorem run_new (evaluator : Evaluator) (extent : Extent) (inquiry : Inquiry) (s : Session) :
    (run evaluator extent { inquiry } s).1 =
      conclude { inquiry, state := .executed } ((evaluator extent inquiry).run s).1 := rfl

theorem conclude_ok_iff {v : Validation} {outcome : Except Fault Unit} :
    (v.conclude outcome).1 = .ok () ↔
      outcome = .ok () ∨ ∃ errors, outcome = .error (.rejected errors) := by
  cases outcome with
  | ok => exact iff_of_true rfl (.inl rfl)
  | error fault =>
    cases fault with
    | rejected errors => exact iff_of_true rfl (.inr ⟨errors, rfl⟩)
    | _ => simp [conclude]

/-- Of a validation that keeps no errors. -/
theorem fails_conclude_iff {v : Validation} {outcome : Except Fault Unit}
    (none : v.errors = .null) :
    (v.conclude outcome).2.fails = true ↔
      ∃ errors, errors ≠ .null ∧ outcome = .error (.rejected errors) := by
  rw [fails_iff]
  cases outcome with
  | ok => simp [conclude, none]
  | error fault =>
    cases fault with
    | rejected errors => simp [conclude]
    | _ => simp [conclude, none]

/-! ### The registered rules -/

/-- What an inquiry asks for besides does not hide what there is: no wording ends the
evaluation, and the formatter makes errors of the breaches that are found, and not null. -/
structure Tells (rules : RuleSet) (extent : Extent) (inquiry : Inquiry) : Prop where
  worded : ∀ pattern field rule args fault,
    inquiry.wordings.text pattern field rule args = .error fault →
    evaluate rules inquiry.wordings extent inquiry.data inquiry.rules ≠ .error fault
  formatted : ∀ breaches,
    evaluate rules inquiry.wordings extent inquiry.data inquiry.rules = .ok breaches →
    breaches ≠ [] → ∃ errors, errors ≠ .null ∧ errorsOf inquiry.formatter breaches = .ok errors

/-- Whether a validation fails by the end of its evaluator. -/
def failing : Except Fault Unit → Except Fault Bool
  | .ok () => .ok false
  | .error (.rejected .null) => .ok false
  | .error (.rejected _) => .ok true
  | .error fault => .error fault

theorem fails_of_ends {outcome : Except Fault Unit}
    (ends : Ends (evaluator extent inquiry) s outcome) :
    ((execute evaluator extent inquiry).run s).1.map fails = failing outcome := by
  obtain ⟨s', run, _⟩ := ends_execute ends
  rw [run]
  cases outcome with
  | ok => rfl
  | error fault =>
    cases fault with
    | rejected errors => cases errors <;> rfl
    | _ => rfl

/-- Breaches that are found make a validation fail, if errors are made of them. -/
theorem failing_verdict {formatter : Option Formatter} {breaches : List Breach}
    (told : breaches ≠ [] → ∃ errors, errors ≠ .null ∧ errorsOf formatter breaches = .ok errors) :
    failing (verdict formatter breaches) = .ok !breaches.isEmpty := by
  cases breaches with
  | nil => rfl
  | cons b rest =>
    obtain ⟨errors, some, told⟩ := told (List.cons_ne_nil _ _)
    have rejects : verdict formatter (b :: rest) = .error (.rejected errors) := by
      rw [verdict, told]
      rfl
    rw [rejects]
    cases errors with
    | null => exact absurd rfl some
    | _ => rfl

/-- **Told or not, the same.** A validation by the registered rules fails just if it does so
without wordings and without a formatter. -/
theorem fails_engine (tells : Tells s.rules extent inquiry) :
    ((execute engine extent inquiry).run s).1.map fails =
      failing (evaluate s.rules [] extent inquiry.data inquiry.rules >>= verdict none) := by
  rw [fails_of_ends ends_engine]
  cases found : evaluate s.rules inquiry.wordings extent inquiry.data inquiry.rules with
  | error fault =>
    have reworded : Reworded inquiry.wordings
        (evaluate s.rules [] extent inquiry.data inquiry.rules) (.error fault) :=
      found ▸ evaluate_reworded _ _
    cases reworded with
    | wording told => exact absurd found (tells.worded _ _ _ _ _ told)
    | same same =>
      rw [map_eq_error_iff.mp same.symm]
      rfl
  | ok breaches =>
    obtain ⟨breaches', plain, alike⟩ := evaluate_plain found
    rw [plain]
    change failing (verdict inquiry.formatter breaches) = failing (verdict none breaches')
    rw [failing_verdict (tells.formatted breaches found),
      failing_verdict fun _ => ⟨_, by rintro ⟨⟩, rfl⟩, isEmpty_of_subjects alike]

/-- **What is reported is not lost.** Of any evaluator, a run returns if the evaluator does or
reports errors; then the validation fails if the errors are anything but null, and does not
fail if nothing was reported. By the registered rules, of two inquiries with the same data
and rules both fail or none, if their wordings end no evaluation and their formatters make
errors of the breaches that are not null. -/
theorem fails_iff_reported (evaluator : Evaluator) (extent : Extent) (inquiry : Inquiry)
    (s : Session) :
    let outcome := ((evaluator extent inquiry).run s).1
    let ran := (run evaluator extent { inquiry } s).1
    (ran.1 = .ok () ↔ outcome = .ok () ∨ ∃ errors, outcome = .error (.rejected errors)) ∧
    (ran.2.fails = true ↔ ∃ errors, errors ≠ .null ∧ outcome = .error (.rejected errors)) ∧
    ∀ other : Inquiry, other.data = inquiry.data → other.rules = inquiry.rules →
      Tells s.rules extent inquiry → Tells s.rules extent other →
      ((execute engine extent other).run s).1.map fails =
        ((execute engine extent inquiry).run s).1.map fails := by
  refine ⟨?_, ?_, ?_⟩
  · rw [run_new]
    exact conclude_ok_iff
  · rw [run_new]
    exact fails_conclude_iff rfl
  · intro other data rules tells tells'
    rw [fails_engine tells, fails_engine tells', data, rules]

/-- A field that is required and missing. -/
theorem evaluate_missing :
    evaluate RuleSet.builtIn [] .all (.map []) (.record [("a", .text "required")]) =
      .ok [⟨"required validation failed on a", "a", "required"⟩] := by
  have found : (evaluate RuleSet.builtIn [] .all (.map []) (.record [("a", .text "required")])
      ).toOption.any (fun breaches => decide (breaches =
        [⟨"required validation failed on a", "a", "required"⟩])) = true := by decide +kernel
  obtain ⟨breaches, found, same⟩ := exists_of_any found
  rw [found, of_decide_eq_true same]

/-- A field that is missing, told of in other words and as a list of texts. -/
theorem fails_iff_reported_worded :
    let plain : Inquiry := { data := .map [], rules := .record [("a", .text "required")] }
    let worded : Inquiry :=
      { plain with
        wordings := [("required", .function fun field _ _ => .ok (.text (field ++ " is missing")))]
        formatter := some fun breaches => .ok (.texts (breaches.map (·.message))) }
    (run engine .all { inquiry := plain } {}).1.2.fails = true ∧
      ((execute engine .all worded).run {}).1.map fails =
        ((execute engine .all plain).run {}).1.map fails := by
  intro plain worded
  have tells {inquiry : Inquiry}
      (found : (evaluate RuleSet.builtIn inquiry.wordings .all inquiry.data inquiry.rules
        ).toOption.isSome = true)
      (told : ∀ breaches, ∃ errors, errors ≠ .null ∧
        errorsOf inquiry.formatter breaches = .ok errors) :
      Tells RuleSet.builtIn .all inquiry := by
    refine ⟨fun _ _ _ _ fault _ failed => ?_, fun breaches _ _ => told breaches⟩
    rw [failed] at found
    cases found
  obtain ⟨-, fails, same⟩ := fails_iff_reported engine .all plain {}
  refine ⟨fails.mpr ?_, same worded rfl rfl
    (tells (by decide +kernel) fun _ => ⟨_, by rintro ⟨⟩, rfl⟩)
    (tells (by decide +kernel) fun _ => ⟨_, by rintro ⟨⟩, rfl⟩)⟩
  obtain ⟨s', run, _⟩ := @ends_engine {} .all plain
  rw [evaluate_missing] at run
  refine ⟨breachList [⟨"required validation failed on a", "a", "required"⟩], by rintro ⟨⟩, ?_⟩
  rw [run]
  rfl

/-- A formatter that leaves nothing of the breaches: the evaluator rejects, and the validation
does not fail. -/
theorem fails_overlooks_null :
    let plain : Inquiry := { data := .map [], rules := .record [("a", .text "required")] }
    let silent : Inquiry := { plain with formatter := some fun _ => .ok .null }
    ((execute engine .all plain).run {}).1.map fails = .ok true ∧
      ((engine .all silent).run {}).1 = .error (.rejected .null) ∧
      ((execute engine .all silent).run {}).1.map fails = .ok false := by
  intro plain silent
  have rejected := @ends_engine {} .all silent
  rw [evaluate_missing] at rejected
  refine ⟨?_, ?_, ?_⟩
  · rw [fails_of_ends ends_engine, evaluate_missing]
    rfl
  · obtain ⟨s', run, _⟩ := rejected
    rw [run]
    rfl
  · rw [fails_of_ends rejected]
    rfl

end Permit.Validation
