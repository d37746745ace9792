import Permit.Authorization
import Permit.Proofs.Diff.Naming
import Permit.Proofs.Diff.Softened
import Permit.Proofs.Session.Compilation

namespace Permit

namespace Authorization

open Permit.Action

variable {s : Session} {permitted data : Value} {rules : List (Value × Value)} {tree : GrantTree}
  {fields : List String}

/-- The fields that are reported of data of JSON: of a container, the paths of the places
changed since its projection, each once; of a scalar, the path of the whole. -/
theorem unauthorized_json (tree : GrantTree) (limit : Int) (json : data.isJson = true) :
    ∃ fields, unauthorized limit tree data = .ok fields ∧ fields.Nodup ∧
      (data.isContainer = true → ∀ field, field ∈ fields ↔
        ∃ place, Diff.Changed (limit - 1).toNat (tree.project data) data place ∧
          field = Path.ofSegments place) ∧
      (data.isContainer = false → fields = [Diff.rootPath]) := by
  have trimmed := tree.project_trimmed json
  have mapping := tree.isContainer_project data
  cases container : data.isContainer with
  | true =>
    obtain ⟨changes, run, named⟩ :=
      Diff.between_named limit (trimmed.isJson json) json mapping container
    refine ⟨Keyed.keys changes, ?_, named.once, fun _ _ => named.mem_keys_iff,
      fun plain => absurd plain (by simp)⟩
    simp only [unauthorized, run]
    rfl
  | false =>
    have other : tree.project data ≠ data := by
      rintro same
      rw [same, container] at mapping
      cases mapping
    refine ⟨[Diff.rootPath], ?_, List.nodup_singleton _, fun whole => absurd whole (by simp),
      fun _ => rfl⟩
    simp only [unauthorized, Diff.between, Diff.edits, Diff.unchanged,
      Diff.equal_eq_false trimmed json other, container, Bool.and_false]
    rfl

theorem isJson_orEmpty (json : data.isJson = true) : (orEmpty data).isJson = true := by
  cases data <;> exact json

theorem ends_reject (check what : String) (kind : ViolationKind) (messages : List FieldMessage) :
    Ends (reject check what kind messages) s (.error (.violation { kind, messages })) := by
  refine (ends_setAttribute _ _).bind fun s₁ _ => ?_
  refine (ends_log _).bind fun s₂ _ => ?_
  refine (Session.ends_recordAuthorization _ _ _).bind fun s₃ _ => ?_
  exact ends_throw _

/-- What the check for fields ends with, given the fields it finds. -/
def verdict (fields : List String) : Except Fault Unit :=
  if fields.isEmpty then .ok ()
  else .error (.violation { kind := .fields, messages := fields.map fieldMessage })

theorem run_declared_eq (permitted : Value) (s : Session) :
    (declared permitted).run s = (normalize s.settings.defaultRule permitted, s) := rfl

theorem run_declared (declares : normalize s.settings.defaultRule permitted = .ok (some rules)) :
    (declared permitted).run s = (.ok (some rules), s) := by
  rw [run_declared_eq, declares]

/-- The check ends as the search for fields does, and with their verdict. -/
theorem ends_checkFields_of_compiles
    (declares : normalize s.settings.defaultRule permitted = .ok (some rules))
    (compiles : s.treeOf (rules.map (·.1)) = .ok tree) :
    Ends (checkFields permitted data) s
      (unauthorized s.settings.maxDiffDepth tree (orEmpty data) >>= verdict) := by
  refine .after (run_declared declares) (ends_within ?_)
  obtain ⟨compiled, same, built⟩ := Session.ends_compileItems_ok
    (s := { s with spans := s.spans.enter "field_policy.authorize_fields" }) compiles
  refine built.bind fun s₁ kept => ?_
  rw [ends_get_bind]
  have given : Ends (lift (unauthorized s₁.settings.maxDiffDepth compiled.tree (orEmpty data)))
      s₁ (unauthorized s.settings.maxDiffDepth tree (orEmpty data)) := by
    rw [kept.settings, same]
    exact ends_lift _
  cases found : unauthorized s.settings.maxDiffDepth tree (orEmpty data) with
  | error fault =>
    rw [found] at given
    exact given.bind_error
  | ok fields =>
    rw [found] at given
    refine given.bind fun s₂ _ => ?_
    change Ends _ s₂ (verdict fields)
    rw [verdict]
    split
    · exact Session.ends_recordAuthorization _ _ 0
    · exact ends_reject _ _ _ _

theorem ends_checkFields
    (declares : normalize s.settings.defaultRule permitted = .ok (some rules))
    (compiles : s.treeOf (rules.map (·.1)) = .ok tree)
    (found : unauthorized s.settings.maxDiffDepth tree (orEmpty data) = .ok fields) :
    Ends (checkFields permitted data) s (verdict fields) := by
  have ends : Ends (checkFields permitted data) s _ :=
    ends_checkFields_of_compiles declares compiles
  rw [found] at ends
  exact ends

end Authorization
end Permit
