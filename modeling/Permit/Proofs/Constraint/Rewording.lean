import Permit.Proofs.Constraint.Evaluation

namespace Permit.Constraint

open Outcome

variable {rules : RuleSet} {wordings : Wordings} {extent : Extent}

/-- What a breach is about, whatever is said of it. -/
def Breach.subject (b : Breach) : String × String := (b.field, b.rule)

def subjects (breaches : List Breach) : List (String × String) := breaches.map Breach.subject

/-- A result tells the same as one in plain words, or it is the fault of a wording. -/
inductive Reworded (wordings : Wordings) (plain : Except Fault (List Breach)) :
    Except Fault (List Breach) → Prop where
  | same {result : Except Fault (List Breach)} :
    result.map subjects = plain.map subjects → Reworded wordings plain result
  | wording {pattern field rule : String} {args : List String} {fault : Fault} :
    wordings.text pattern field rule args = .error fault → Reworded wordings plain (.error fault)

theorem isEmpty_of_subjects {found found' : List Breach} (same : subjects found = subjects found') :
    found.isEmpty = found'.isEmpty := by
  have empty := congrArg List.isEmpty same
  rwa [subjects, subjects, List.isEmpty_map, List.isEmpty_map] at empty

/-- Whether an evaluation goes on depends on what the breaches are about. -/
theorem Extent.endsWith_subjects {found found' : List Breach}
    (same : subjects found = subjects found') : extent.endsWith found = extent.endsWith found' := by
  rw [endsWith, endsWith, isEmpty_of_subjects same]

/-- One step after the other, each of which tells the same or ends in the fault of a wording. -/
theorem Reworded.bind {plain result : Except Fault (List Breach)}
    {plainly next : List Breach → Except Fault (List Breach)}
    (first : Reworded wordings plain result)
    (continued : ∀ found found', subjects found = subjects found' →
      Reworded wordings (plainly found') (next found)) :
    Reworded wordings (plain >>= plainly) (result >>= next) := by
  cases first with
  | wording told => exact .wording told
  | same same =>
    cases result with
    | error fault =>
      rw [map_eq_error_iff.mp same.symm]
      exact .same rfl
    | ok found =>
      obtain ⟨found', rfl, alike⟩ := map_eq_ok_iff.mp same.symm
      exact continued found found' alike.symm

theorem gather_reworded {α : Type} {plain find : α → Except Fault (List Breach)}
    (each : ∀ x, Reworded wordings (plain x) (find x)) (xs : List α) :
    Reworded wordings (gather extent plain xs) (gather extent find xs) := by
  induction xs with
  | nil => exact .same rfl
  | cons x rest ih =>
    refine (each x).bind fun found found' alike => ?_
    rw [extent.endsWith_subjects alike]
    split
    · exact .same (congrArg Except.ok alike)
    · refine ih.bind fun others others' alike' => .same (congrArg Except.ok ?_)
      rw [subjects, subjects, List.map_append, List.map_append]
      exact congrArg₂ (· ++ ·) alike alike'

theorem breach?_reworded (pattern : String) (field : Field) (c : Constraint) :
    Reworded wordings (breach? rules [] pattern field c)
      (breach? rules wordings pattern field c) := by
  unfold breach?
  split
  · exact .same rfl
  · split
    next => exact .same rfl
    next f found =>
      cases f field.value c.args with
      | error fault => exact .same rfl
      | ok result =>
        simp only [bind, Except.bind]
        split
        · exact .same rfl
        · cases told : wordings.text pattern field.path c.rule c.args with
          | error fault => exact .wording told
          | ok text => exact .same rfl

theorem breachesOf_reworded (data : Value) (entry : Value × List Constraint) :
    Reworded wordings (breachesOf rules [] extent data entry)
      (breachesOf rules wordings extent data entry) := by
  unfold breachesOf
  cases patternText entry.1 with
  | error fault => exact .same rfl
  | ok pattern =>
    cases resolved : fields data pattern with
    | error fault =>
      simp only [bind, Except.bind, resolved]
      exact .same rfl
    | ok found =>
      simp only [bind, Except.bind, resolved]
      exact gather_reworded (fun field => gather_reworded (breach?_reworded pattern field) _) found

/-- **Other words, the same breaches.** An evaluation with wordings tells of the rules that
are broken without them, by the same fields, unless a wording ends it. -/
theorem evaluate_reworded (data declared : Value) :
    Reworded wordings (evaluate rules [] extent data declared)
      (evaluate rules wordings extent data declared) := by
  unfold evaluate
  cases readAll rules declared with
  | error fault => exact .same rfl
  | ok readings => exact gather_reworded (breachesOf_reworded data) readings

/-! ### What wordings bring with them -/

variable {data : Value} {entries : List (Value × Value)} {fault : Fault}

/-- No wording itself ends in a fault. -/
def Wordings.Avoids (wordings : Wordings) (fault : Fault) : Prop :=
  ∀ pattern field rule args, wordings.text pattern field rule args ≠ .error fault

/-- Templates may fail to be filled, but they do not signal. -/
theorem Wordings.avoids_templates (signal : fault.IsSignal)
    (templates : ∀ entry ∈ wordings, ∃ v, entry.2 = .template v) : wordings.Avoids fault := by
  intro pattern field rule args
  rw [Wordings.text]
  split
  next w chosen =>
    have listed : ∃ key, (key, w) ∈ wordings := by
      rcases Option.or_eq_some_iff.mp chosen with found | ⟨_, chosen⟩
      · exact ⟨_, Keyed.mem_of_find? found⟩
      · rcases Option.or_eq_some_iff.mp chosen with found | ⟨_, found⟩
        · exact ⟨_, Keyed.mem_of_find? found⟩
        · exact ⟨_, Keyed.mem_of_find? found⟩
    obtain ⟨key, listed⟩ := listed
    obtain ⟨v, rfl⟩ := templates _ listed
    refine bind_ne_error (mapError_ne_error fun cause => ?_) fun template =>
      mapError_ne_error fun cause => ?_
    all_goals
      rintro rfl
      cases signal
  next => rintro ⟨⟩

/-- An evaluation with wordings ends in no signal, unless a rule or a wording does. -/
theorem evaluate_ne_signal_worded (signal : fault.IsSignal) (avoids : rules.Avoids fault)
    (worded : wordings.Avoids fault) :
    evaluate rules wordings extent data (.map entries) ≠ .error fault := by
  intro failed
  have reworded : Reworded wordings (evaluate rules [] extent data (.map entries))
      (evaluate rules wordings extent data (.map entries)) := evaluate_reworded _ _
  rw [failed] at reworded
  cases reworded with
  | same same =>
    exact evaluate_ne_signal signal avoids (map_eq_error_iff.mp same.symm)
  | wording told => exact worded _ _ _ _ told

/-- What an evaluation with wordings tells, one without them tells of as well. -/
theorem evaluate_plain {declared : Value} {found : List Breach}
    (run : evaluate rules wordings extent data declared = .ok found) :
    ∃ plain, evaluate rules [] extent data declared = .ok plain ∧
      subjects plain = subjects found := by
  have reworded : Reworded wordings (evaluate rules [] extent data declared)
      (evaluate rules wordings extent data declared) := evaluate_reworded _ _
  rw [run] at reworded
  cases reworded with
  | same same => exact map_eq_ok_iff.mp same.symm

end Permit.Constraint
