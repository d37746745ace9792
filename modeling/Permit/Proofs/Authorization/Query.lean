import Permit.Proofs.Authorization.Fields
import Permit.Proofs.Projection.Coverage
import Permit.Proofs.Validation

namespace Permit.Authorization

open Permit.Action Constraint

variable {s s' : Session} {permitted data x : Value} {rules entries : List (Value × Value)}
  {place : List String}

/-- Where the evaluator tells what is wrong, the check for values does not pass. -/
theorem ends_checkValues_error {evaluator : Evaluator} {fault : Fault}
    (declares : normalize s.settings.defaultRule permitted = .ok (some rules))
    (told : fault ≠ .rejected .null)
    (ends : Ends (evaluator .all { data := orEmpty data, rules := .map rules })
      { s with spans := s.spans.enter "field_policy.authorize_field_values" } (.error fault)) :
    ∃ fault, Ends (checkValues evaluator permitted data) s (.error fault) := by
  have reads := run_declared declares
  rcases Validation.ends_execute_of_error told ends with ⟨v, fails, executed⟩ | failed
  · cases messages : messagesOf v with
    | error fault =>
      refine ⟨fault, .after reads (ends_within (executed.bind fun s₁ _ => ?_))⟩
      rw [fails, messages]
      exact (ends_lift (.error fault)).bind_error
    | ok messages' =>
      refine ⟨.violation { kind := .values, messages := messages' },
        .after reads (ends_within (executed.bind fun s₁ _ => ?_))⟩
      rw [fails, messages]
      exact (ends_lift (.ok messages')).bind fun s₂ _ => ends_reject _ _ _ _
  · exact ⟨fault, .after reads (ends_within failed.bind_error)⟩

theorem evaluate_of_checkValues
    (declares : normalize s.settings.defaultRule permitted = .ok (some rules))
    (answers : s.rules.Answers)
    (passes : (checkValues Evaluator.engine permitted data).run s = (.ok (), s')) :
    evaluate s.rules [] .all (orEmpty data) (.map rules) = .ok [] := by
  let within : Session := { s with spans := s.spans.enter "field_policy.authorize_field_values" }
  rcases @Evaluator.evaluate_of_engine within .all (orEmpty data) rules answers with
    none | ⟨fault, told, ends⟩
  · exact none
  · obtain ⟨other, refused⟩ := ends_checkValues_error declares told ends
    cases (refused.outcome_eq passes).1

theorem run_of_counted {action : Action Unit} (passes : (counted action).run s = (.ok (), s')) :
    ∃ s₁, action.run s = (.ok (), s₁) := by
  rw [counted, run_bind, run_tryCatch] at passes
  cases run : action.run s with
  | mk outcome s₁ =>
    cases outcome with
    | ok => exact ⟨s₁, rfl⟩
    | error fault =>
      rw [run] at passes
      cases fault with
      | violation v =>
        obtain ⟨s₂, refused, _⟩ : Ends (do
            Session.recordAuthorization requestCheck "rejected"
            throw (.violation v) : Action Unit) s₁ (.error (.violation v)) :=
          (Session.ends_recordAuthorization _ _ 0).bind fun s₂ _ => ends_throw _
        simp only [refused] at passes
        cases passes
      | _ => cases passes

/-- A request that passes has passed both checks, one after the other. -/
theorem checks_of_check {evaluator : Evaluator}
    (passes : (check evaluator permitted data).run s = (.ok (), s')) :
    ∃ s₁ s₂, (checkFields permitted data).run s = (.ok (), s₁) ∧
      (checkValues evaluator permitted data).run s₁ = (.ok (), s₂) := by
  obtain ⟨s₂, both⟩ := run_of_counted passes
  rw [run_bind] at both
  cases fields : (checkFields permitted data).run s with
  | mk outcome s₁ =>
    rw [fields] at both
    cases outcome with
    | ok => exact ⟨s₁, s₂, rfl, both⟩
    | error fault => cases both

theorem treeOf_of_checkFields
    (declares : normalize s.settings.defaultRule permitted = .ok (some rules))
    (passes : (checkFields permitted data).run s = (.ok (), s')) :
    ∃ tree, s.treeOf (rules.map (·.1)) = .ok tree := by
  cases outcome : s.treeOf (rules.map (·.1)) with
  | ok tree => exact ⟨tree, rfl⟩
  | error fault =>
    have failed : Ends (checkFields permitted data) s (.error (.path fault)) := by
      refine .after (run_declared declares) (ends_within (.bind_error ?_))
      exact Session.ends_compileItems_error outcome
    cases (failed.outcome_eq passes).1

/-- What passes the check for fields is a container whose leaves are all kept by the
projection to the declared paths. -/
theorem leaf_kept_of_checkFields
    (declares : normalize s.settings.defaultRule permitted = .ok (some rules))
    (json : data.isJson = true)
    (passes : (checkFields permitted data).run s = (.ok (), s')) :
    Keeps s s' ∧ ∃ limit tree, ∃ texts : List String, rules.map (·.1) = texts.map Value.text ∧
      GrantTree.compile limit (texts.map Value.text) = .ok tree ∧
      ∀ place x, x.isContainer = false → (orEmpty data).at? place = some x →
        (tree.project (orEmpty data)).at? place = some x := by
  obtain ⟨tree, found⟩ := treeOf_of_checkFields declares passes
  obtain ⟨limit, compiles⟩ := Session.treeOf_compiled found
  have listed := GrantTree.map_textsOf compiles
  obtain ⟨fields, reported, _, changes, whole⟩ :=
    unauthorized_json tree s.settings.maxDiffDepth (isJson_orEmpty json)
  obtain ⟨verdict, kept⟩ := (ends_checkFields declares found reported).outcome_eq passes
  have none : fields = [] := by
    rw [Authorization.verdict] at verdict
    split at verdict
    next empty => exact List.isEmpty_iff.mp empty
    next => cases verdict
  have container : (orEmpty data).isContainer = true := by
    by_contra scalar
    have root := whole (by simpa using scalar)
    rw [none] at root
    cases root
  refine ⟨kept, limit, tree, _, listed.symm, listed.symm ▸ compiles, ?_⟩
  intro place x plain held
  by_contra gone
  obtain ⟨outer, ⟨_, changed⟩, _⟩ := Diff.pruned_leaf (s.settings.maxDiffDepth - 1).toNat
    (tree.project_trimmed (isJson_orEmpty json)) (isJson_orEmpty json) container plain held gone
  have field := (changes container _).mpr ⟨outer, changed, rfl⟩
  rw [none] at field
  cases field

/-- **No unchecked leaf.** If a request passes, each leaf of its data (absent data count as
an empty mapping) lies at or below a value that a declared path stands for and that has
passed all rules of this path. -/
theorem check_leaf_passed (answers : s.rules.Answers) (json : data.isJson = true)
    (passes : (check Evaluator.engine (.map entries) data).run s = (.ok (), s'))
    (plain : x.isContainer = false) (held : (orEmpty data).at? place = some x) :
    ∃ pattern definition fields field value constraints,
      (.text pattern, definition) ∈ entries ∧
      Constraint.fields (orEmpty data) pattern = .ok fields ∧ field ∈ fields ∧
      field.value = some value ∧ Path.segments field.path <+: place ∧
      (orEmpty data).at? (Path.segments field.path) = some value ∧
      Constraint.read (rulesOr s.settings.defaultRule definition) = .ok constraints ∧
      ∀ c ∈ constraints, Passes s.rules value c := by
  obtain ⟨s₁, s₂, fieldsPass, valuesPass⟩ := checks_of_check passes
  have declares : normalize s.settings.defaultRule (.map entries) =
      .ok (some (entries.map fun entry =>
        (entry.1, rulesOr s.settings.defaultRule entry.2))) := rfl
  obtain ⟨kept, limit, tree, texts, listed, compiles, leaves⟩ :=
    leaf_kept_of_checkFields declares json fieldsPass
  have json := isJson_orEmpty json
  obtain ⟨text, given, inner, outer, value, rfl, reaches⟩ :=
    GrantTree.project_reaches compiles json plain (leaves place x plain held)
  obtain ⟨⟨path, definition⟩, inside, rfl⟩ : ∃ entry ∈ entries, entry.1 = Value.text text := by
    have member := List.mem_map_of_mem (f := Value.text) given
    rw [← listed, List.map_map] at member
    exact List.mem_map.mp member
  rw [← kept.settings] at declares
  rw [← kept.rules] at answers
  have none := evaluate_of_checkValues declares answers valuesPass
  rw [kept.settings, kept.rules] at none
  obtain ⟨constraints, fields, read, resolved, passed⟩ :=
    passes_of_evaluate none (List.mem_map_of_mem inside)
  have filled := ((GrantTree.compile_eq_ok_iff.mp compiles).1 text given).filled
  obtain ⟨member, segments⟩ := mem_fields reaches json filled resolved
  refine ⟨text, definition, fields, _, value, constraints, inside, resolved, member, rfl, ?_, ?_,
    read, passed _ member value rfl⟩
  · rw [segments]
    exact List.prefix_append inner outer
  · rw [segments]
    exact reaches.at?

/-- An entry of an element, where that of every element has to be a number. -/
theorem check_leaf_passed_element :
    ∃ s', (check Evaluator.engine (.map [(.text "a.*.x", .text "integer")])
        (.record [("a", .list [.record [("x", .int 2)]])])).run {} = (.ok (), s') ∧
      (Value.record [("a", .list [.record [("x", .int 2)]])]).at? ["a", "0", "x"] =
        some (.int 2) ∧
      ∃ fields field value constraints,
        Constraint.fields (.record [("a", .list [.record [("x", .int 2)]])]) "a.*.x" =
          .ok fields ∧ field ∈ fields ∧ field.value = some value ∧
        Path.segments field.path <+: ["a", "0", "x"] ∧
        (Value.record [("a", .list [.record [("x", .int 2)]])]).at? (Path.segments field.path) =
          some value ∧
        Constraint.read (.text "integer") = .ok constraints ∧
        ∀ c ∈ constraints, Passes RuleSet.builtIn value c := by
  have ends : ((check Evaluator.engine (.map [(.text "a.*.x", .text "integer")])
      (.record [("a", .list [.record [("x", .int 2)]])])).run ({} : Session)).1.toOption.isSome =
      true := by decide +kernel
  obtain ⟨⟨⟩, s', passes⟩ := exists_run ends
  have held : (Value.record [("a", .list [.record [("x", .int 2)]])]).at? ["a", "0", "x"] =
      some (.int 2) := by rfl
  obtain ⟨pattern, definition, fields, field, value, constraints, inside, found⟩ :=
    check_leaf_passed (s := {}) RuleSet.answers_builtIn (by decide) passes (by rfl) held
  cases List.mem_singleton.mp inside
  exact ⟨s', passes, held, fields, field, value, constraints, found⟩

end Permit.Authorization
