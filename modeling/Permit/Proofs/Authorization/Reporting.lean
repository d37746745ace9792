import Permit.Proofs.Authorization.Totality
import Permit.Proofs.Constraint.Rewording
import Permit.Proofs.Constraint.Trials

namespace Permit.Authorization

open Permit.Action Constraint Evaluator Outcome

variable {s : Session} {data : Value} {wordings : Wordings} {entries : List (Value × Value)}

/-- Definitions that an evaluation has read are declared as they are: null is none. -/
theorem normalize_of_evaluate {rules : RuleSet} {extent : Extent} {found : List Breach}
    (run : evaluate rules wordings extent data (.map entries) = .ok found) (default : String) :
    normalize default (.map entries) = .ok (some entries) := by
  simp only [normalize]
  congr 2
  refine (List.map_congr_left fun entry inside => ?_).trans (List.map_id _)
  obtain ⟨constraints, known⟩ := readKnown_of_evaluate run inside
  have given := read_of_readKnown known
  obtain ⟨path, definition⟩ := entry
  cases definition with
  | null => cases given
  | _ => rfl

/-- The check for values reports the breaches that an evaluation finds, whatever its words are. -/
theorem checkValues_of_evaluate {b : Breach} {rest : List Breach} (given : data ≠ .null)
    (found : evaluate s.rules wordings .all data (.map entries) = .ok (b :: rest)) :
    ∃ messages, ((checkValues engine (.map entries) data).run s).1 =
        .error (.violation { kind := .values, messages }) ∧
      messages.map (fun m => (m.field, m.rule)) =
        (b :: rest).map fun b => (b.field, some b.rule) := by
  obtain ⟨plain, run, alike⟩ := evaluate_plain found
  have present : orEmpty data = data := by
    cases data with
    | null => exact absurd rfl given
    | _ => rfl
  rw [← present] at run
  obtain ⟨s', ran, _⟩ := ends_checkValues_of_breaches
    (normalize_of_evaluate run s.settings.defaultRule) run
  have some : plain.isEmpty = false := isEmpty_of_subjects alike
  refine ⟨plain.map breachMessage, by rw [ran, valuesVerdict, some]; rfl, ?_⟩
  have pairs := congrArg (List.map fun about => (about.1, Option.some about.2)) alike
  rw [subjects, subjects, List.map_map, List.map_map] at pairs
  rw [List.map_map]
  exact pairs

/-- **First and all, evaluator and check.** Up to the first failure the evaluator ends well just
if it does among all rules. If it rejects among all rules, then with the breaches that tell of
the trials that fail, of which there is one at least; up to the first failure it then rejects with
the first of them, and the check for values reports them all, field by field and rule by rule. -/
theorem breaches_reported (answers : ∀ errors, s.rules.Avoids (.rejected errors))
    (worded : ∀ errors, wordings.Avoids (.rejected errors)) (given : data ≠ .null)
    (entries : List (Value × Value)) :
    let inquiry : Inquiry := { data, rules := .map entries, wordings }
    (((engine .first inquiry).run s).1 = .ok () ↔ ((engine .all inquiry).run s).1 = .ok ()) ∧
      ∀ errors, ((engine .all inquiry).run s).1 = .error (.rejected errors) →
        ∃ all b rest, trials data entries = .ok all ∧
          Reports s.rules wordings all (b :: rest) ∧
          errors = breachList (b :: rest) ∧
          ((engine .first inquiry).run s).1 = .error (.rejected (breachList [b])) ∧
          ∃ messages, ((checkValues engine (.map entries) data).run s).1 =
              .error (.violation { kind := .values, messages }) ∧
            messages.map (fun m => (m.field, m.rule)) =
              (b :: rest).map fun b => (b.field, some b.rule) := by
  intro inquiry
  refine ⟨?_, fun errors rejects => ?_⟩
  · rw [engine_ok_iff, engine_ok_iff]
    exact evaluate_eq_nil_congr .first .all
  · obtain ⟨b, rest, found, rfl⟩ := evaluate_of_rejected rfl
      (evaluate_ne_signal_worded (.rejected errors) (answers errors) (worded errors)) rejects
    obtain ⟨all, tried, reports⟩ := reports_of_evaluate found
    have first := rejected_of_evaluate rfl (evaluate_first found)
    exact ⟨all, b, rest, tried, reports, rfl, first, checkValues_of_evaluate given found⟩

/-- Fields of rows, one of which is absent, a rule with words of its own, and an absent field
that only one of its rules looks at. -/
theorem breaches_reported_rows :
    let data : Value := .record [("rows", .list [.record [("n", .int 0)], .record []]),
      ("note", .text "long")]
    let entries : List (Value × Value) := [(.text "rows.*.n", .text "required|above:0"),
      (.text "note", .text "max:3"), (.text "x.y", .text "string|required")]
    let wordings : Wordings := [("max", .template (.text "over \x7bargs\x7d"))]
    let inquiry : Inquiry := { data, rules := .map entries, wordings }
    let errors := breachList [⟨"above validation failed on rows.0.n", "rows.0.n", "above"⟩,
      ⟨"required validation failed on rows.1.n", "rows.1.n", "required"⟩,
      ⟨"over 3", "note", "max"⟩, ⟨"required validation failed on x.y", "x.y", "required"⟩]
    ((engine .all inquiry).run {}).1 = .error (.rejected errors) ∧
      ∃ b rest messages, errors = breachList (b :: rest) ∧
        ((engine .first inquiry).run {}).1 = .error (.rejected (breachList [b])) ∧
        ((checkValues engine (.map entries) data).run {}).1 =
          .error (.violation { kind := .values, messages }) ∧
        messages.map (fun m => (m.field, m.rule)) =
          (b :: rest).map fun b => (b.field, some b.rule) := by
  intro data entries wordings inquiry errors
  have worded (errors : Value) : wordings.Avoids (.rejected errors) :=
    Wordings.avoids_templates (.rejected errors) fun entry inside =>
      ⟨_, congrArg Prod.snd (List.mem_singleton.mp inside)⟩
  have answers (errors : Value) : ({} : Session).rules.Avoids (.rejected errors) :=
    RuleSet.avoids_builtIn (.rejected errors)
  have given : data ≠ .null := by
    change Value.map _ ≠ .null
    rintro ⟨⟩
  have found : ((evaluate RuleSet.builtIn wordings .all data (.map entries)).toOption.any (· == [
      ⟨"above validation failed on rows.0.n", "rows.0.n", "above"⟩,
      ⟨"required validation failed on rows.1.n", "rows.1.n", "required"⟩,
      ⟨"over 3", "note", "max"⟩,
      ⟨"required validation failed on x.y", "x.y", "required"⟩])) = true := by decide +kernel
  obtain ⟨breaches, found, same⟩ := exists_of_any found
  obtain rfl := eq_of_beq same
  have rejects : ((engine .all inquiry).run {}).1 = .error (.rejected errors) :=
    rejected_of_evaluate rfl found
  obtain ⟨_, b, rest, _, _, told, first, messages, violates, pairs⟩ :=
    (breaches_reported answers worded given entries).2 errors rejects
  exact ⟨rejects, b, rest, messages, told, first, violates, pairs⟩

end Permit.Authorization
