import Permit.Proofs.Authorization.Fields

namespace Permit.Authorization

open Permit.Action

variable {s : Session} {permitted data : Value} {rules : List (Value × Value)} {tree : GrantTree}

/-- Whether data are what is left of them, once empty lists are read as empty mappings on
the levels that are walked up to a limit of depth. -/
def Covered (limit : Int) (tree : GrantTree) (data : Value) : Prop :=
  let levels := max 1 limit.toNat
  ((tree.project data).soften levels).equal (data.soften levels) = .ok true

theorem covered_iff {limit : Int} (json : data.isJson = true) :
    Covered limit tree data ↔
      (tree.project data).soften ((limit - 1).toNat + 1) = data.soften ((limit - 1).toNat + 1) := by
  have levels : max 1 limit.toNat = (limit - 1).toNat + 1 := by omega
  simp only [Covered, levels]
  constructor
  · exact ((tree.project_trimmed json).soften _).eq_of_equal (Value.isJson_soften _ json _)
  · intro same
    rw [same]
    exact Value.equal_self _ (Value.isJson_soften _ json _)

/-- No field is reported of data that are covered, and of no others. -/
theorem unauthorized_eq_nil_iff {limit : Int} {fields : List String} (json : data.isJson = true)
    (found : unauthorized limit tree data = .ok fields) :
    fields = [] ↔ Covered limit tree data := by
  obtain ⟨fields', found', _, changes, whole⟩ := unauthorized_json tree limit json
  obtain rfl : fields = fields' := Except.ok.inj (found.symm.trans found')
  rw [covered_iff json]
  cases container : data.isContainer with
  | true =>
    have mapping := tree.isContainer_project data
    rw [← Diff.not_changed_iff _ (tree.project_trimmed json) json mapping container,
      List.eq_nil_iff_forall_not_mem]
    constructor
    · intro none place changed
      exact none _ ((changes container _).mpr ⟨place, changed, rfl⟩)
    · intro none field inside
      obtain ⟨place, changed, _⟩ := (changes container field).mp inside
      exact none place changed
  | false =>
    rw [whole container]
    refine iff_of_false (List.cons_ne_nil _ _) ?_
    rw [Value.soften_of_scalar container]
    intro same
    have mapping := tree.isContainer_project data
    rw [← Value.isContainer_soften _ ((limit - 1).toNat + 1), same, container] at mapping
    cases mapping

/-- **When the check for fields passes.** It passes if data are covered by their projection,
and else ends in a violation with at least one field; data that are the same as their
projection are always covered. -/
theorem checkFields_ok_iff
    (declares : normalize s.settings.defaultRule permitted = .ok (some rules))
    (compiles : s.treeOf (rules.map (·.1)) = .ok tree) (json : data.isJson = true) :
    ((∃ s', (checkFields permitted data).run s = (.ok (), s')) ↔
      Covered s.settings.maxDiffDepth tree (orEmpty data)) ∧
    (¬ Covered s.settings.maxDiffDepth tree (orEmpty data) →
      ∃ fields s', fields ≠ [] ∧ (checkFields permitted data).run s =
        (.error (.violation { kind := .fields, messages := fields.map fieldMessage }), s')) ∧
    ((tree.project (orEmpty data)).equal (orEmpty data) = .ok true →
      Covered s.settings.maxDiffDepth tree (orEmpty data)) := by
  have json := isJson_orEmpty json
  obtain ⟨fields, found, _⟩ := unauthorized_json tree s.settings.maxDiffDepth json
  obtain ⟨s', run, _⟩ := ends_checkFields declares compiles found
  rw [← unauthorized_eq_nil_iff json found]
  have refused (some : fields ≠ []) : verdict fields =
      .error (.violation { kind := .fields, messages := fields.map fieldMessage }) := by
    rw [verdict, if_neg (by simpa using some)]
  refine ⟨⟨?_, ?_⟩, ?_, ?_⟩
  · rintro ⟨s'', passed⟩
    by_contra some
    rw [run, refused some] at passed
    cases passed
  · intro none
    subst none
    exact ⟨s', run⟩
  · intro some
    exact ⟨fields, s', some, refused some ▸ run⟩
  · intro same
    rw [unauthorized_eq_nil_iff json found, covered_iff json,
      (tree.project_trimmed json).eq_of_equal json same]

/-- An element that fits, and one that does not: a field of the second is reported. -/
theorem checkFields_ok_iff_elements :
    normalize ({} : Session).settings.defaultRule (.list [.text "a.*.x"]) =
        .ok (some [(.text "a.*.x", .text ({} : Session).settings.defaultRule)]) ∧
      (∃ tree, ({} : Session).treeOf [.text "a.*.x"] = .ok tree) ∧
      (Value.record [("a", .list [.record [("x", .int 1)], .int 2])]).isJson = true ∧
      ∃ fields s', fields ≠ [] ∧ (checkFields (.list [.text "a.*.x"])
        (.record [("a", .list [.record [("x", .int 1)], .int 2])])).run {} =
          (.error (.violation { kind := .fields, messages := fields.map fieldMessage }), s') := by
  have test : (({} : Session).treeOf [.text "a.*.x"]).toOption.any (fun tree =>
      let data := Value.record [("a", .list [.record [("x", .int 1)], .int 2])]
      let levels := max 1 ({} : Session).settings.maxDiffDepth.toNat
      decide (((tree.project data).soften levels).equal (data.soften levels) = .ok false)) =
      true := by decide +kernel
  obtain ⟨tree, compiles, differ⟩ := Outcome.exists_of_any test
  have declares : normalize ({} : Session).settings.defaultRule (.list [.text "a.*.x"]) =
      .ok (some [(.text "a.*.x", .text ({} : Session).settings.defaultRule)]) := rfl
  refine ⟨declares, ⟨tree, compiles⟩, by decide, ?_⟩
  refine (checkFields_ok_iff declares compiles (by decide)).2.1 fun covered => ?_
  cases (of_decide_eq_true differ).symm.trans covered

/-- An empty list passes where the projection has an empty mapping instead of it. -/
theorem checkFields_accepts_empty_list :
    ∃ tree, ({} : Session).treeOf [.text "a.*.x"] = .ok tree ∧
      (tree.project (.record [("a", .list [.list []])])).equal
        (.record [("a", .list [.list []])]) = .ok false ∧
      ∃ s', (checkFields (.list [.text "a.*.x"]) (.record [("a", .list [.list []])])).run {} =
        (.ok (), s') := by
  have test : (({} : Session).treeOf [.text "a.*.x"]).toOption.any (fun tree =>
      decide ((tree.project (.record [("a", .list [.list []])])).equal
        (.record [("a", .list [.list []])]) = .ok false)) = true := by decide +kernel
  have ends : ((checkFields (.list [.text "a.*.x"]) (.record [("a", .list [.list []])])).run
      ({} : Session)).1.toOption.isSome = true := by decide +kernel
  obtain ⟨tree, compiles, differ⟩ := Outcome.exists_of_any test
  obtain ⟨⟨⟩, passes⟩ := exists_run ends
  exact ⟨tree, compiles, of_decide_eq_true differ, passes⟩

end Permit.Authorization
