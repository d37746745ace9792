import Permit.Proofs.Constraint.Evaluation
import Permit.Proofs.Constraint.Resolution
import Permit.Proofs.Value.Oversized

namespace Permit.Constraint

open Outcome

variable {wordings : Wordings} {extent : Extent} {data v w : Value} {args : List String}
  {pattern segment : String} {field : Field} {c : Constraint} {fault : Fault}

/-- A fault in converting an integer that a value holds. -/
def Overflow (v : Value) (fault : Fault) : Prop :=
  (∃ cause, fault = .numeral cause) ∧ v.Oversized

/-! ### Checks -/

def Check.takesNumber : Check → Bool
  | .atLeast => true
  | .atMost => true
  | .above => true
  | .below => true
  | _ => false

def Check.Takes (check : Check) (args : List String) : Prop :=
  check.takesNumber = true → ∃ arg x, args = [arg] ∧ Number.readFloat? arg = some x

/-- A constraint by a rule known from the start, with the arguments that it takes; a pattern
has a grammar of its own, which is not looked into here. -/
def Sound (c : Constraint) : Prop :=
  c.rule = required ∨
    ∃ check : Check, check ≠ .pattern ∧ c.rule = check.name ∧ check.Takes c.args

theorem find?_required : RuleSet.builtIn.find? required =
    some fun v _ => .ok (.bool (isFilled v)) := rfl

theorem find?_name (check : Check) : RuleSet.builtIn.find? check.name = some check.toRule := by
  cases check <;> rfl

theorem Sound.known (h : Sound c) : (RuleSet.builtIn.find? c.rule).isSome = true := by
  rcases h with same | ⟨check, _, same, _⟩
  · rw [same, find?_required]
    rfl
  · rw [same, find?_name]
    rfl

theorem overflow_of_comparedText (json : v.isJson = true)
    (failed : comparedText v = .error fault) : Overflow v fault := by
  have shown {v : Value} (json : v.isJson = true)
      (failed : (v.display.mapError Fault.numeral) = .error fault) : Overflow v fault := by
    cases display : v.display with
    | ok s =>
      rw [display] at failed
      cases failed
    | error cause =>
      rw [display] at failed
      cases failed
      exact ⟨⟨cause, rfl⟩, Value.oversized_of_display json display⟩
  cases v with
  | bool b => cases failed
  | _ => exact shown json failed

theorem overflow_of_isListed (json : v.isJson = true)
    (failed : isListed args v = .error fault) : Overflow v fault := by
  rcases bind_eq_error_iff.mp failed with failed | ⟨_, _, done⟩
  · exact overflow_of_comparedText json failed
  · cases done

theorem overflow_of_element {items : List Value} (json : (Value.list items).isJson = true)
    (failed : ∃ v ∈ items, isListed args v = .error fault) :
    Overflow (.list items) fault := by
  obtain ⟨v, inside, own⟩ := failed
  obtain ⟨cause, large⟩ := overflow_of_isListed (Value.isJson_list.mp json v inside) own
  exact ⟨cause, large.of_mem inside⟩

theorem overflow_of_number? (failed : number? v = .error fault) : Overflow v fault := by
  unfold number? at failed
  split at failed
  next n =>
    split at failed
    next => cases failed
    next none =>
      cases failed
      exact ⟨⟨_, rfl⟩, .of_int (.inl none)⟩
  all_goals cases failed

/-- A number that can be read is the argument of every rule that takes one. -/
theorem numericArg_exists (rule : String)
    (takes : ∃ arg x, args = [arg] ∧ Number.readFloat? arg = some x) :
    ∃ x, numericArg rule args = .ok x := by
  obtain ⟨arg, x, rfl, reads⟩ := takes
  exact ⟨x, by rw [numericArg, reads]⟩

theorem checkLength_ne_error {rule : String} {holds : Number.Binary64 → Number.Binary64 → Bool}
    (takes : ∃ arg x, args = [arg] ∧ Number.readFloat? arg = some x) :
    checkLength rule holds args v ≠ .error fault := by
  obtain ⟨x, reads⟩ := numericArg_exists rule takes
  unfold checkLength
  rw [reads]
  split
  · rintro ⟨⟩
  · rintro ⟨⟩

theorem overflow_of_checkNumber {rule : String}
    {holds : Number.Binary64 → Number.Binary64 → Bool}
    (takes : ∃ arg x, args = [arg] ∧ Number.readFloat? arg = some x)
    (failed : checkNumber rule holds args v = .error fault) : Overflow v fault := by
  obtain ⟨x, reads⟩ := numericArg_exists rule takes
  rcases bind_eq_error_iff.mp failed with failed | ⟨found, _, failed⟩
  · exact overflow_of_number? failed
  · rw [reads] at failed
    split at failed
    · cases failed
    · cases failed

/-- **A check fails** only on an integer that is too large. -/
theorem overflow_of_passes {check : Check} (known : check ≠ .pattern) (takes : check.Takes args)
    (json : v.isJson = true) (failed : check.passes args v = .error fault) :
    Overflow v fault := by
  cases check with
  | anything | integer | flag | mapping | sequence => cases failed
  | string =>
    simp only [Check.passes] at failed
    split at failed
    all_goals cases failed
  | number =>
    rcases bind_eq_error_iff.mp failed with failed | ⟨_, _, done⟩
    · exact overflow_of_number? failed
    · cases done
  | oneOf =>
    cases v with
    | list items => exact overflow_of_element json (exists_of_allListed failed)
    | map entries => cases failed
    | tuple items => cases json
    | _ => exact overflow_of_isListed json failed
  | noneOf =>
    cases v with
    | list items => exact overflow_of_element json (exists_of_noneListed failed)
    | tuple items => cases json
    | _ =>
      rcases bind_eq_error_iff.mp failed with failed | ⟨_, _, done⟩
      · exact overflow_of_isListed json failed
      · cases done
  | atLeast | atMost =>
    simp only [Check.passes] at failed
    exact absurd failed (checkLength_ne_error (takes rfl))
  | above | below => exact overflow_of_checkNumber (takes rfl) failed
  | pattern => exact absurd rfl known
  | equals =>
    rcases bind_eq_error_iff.mp failed with failed | ⟨_, _, done⟩
    · exact overflow_of_comparedText json failed
    · cases done

theorem overflow_of_toRule {check : Check} (known : check ≠ .pattern) (takes : check.Takes args)
    {given : Option Value} (json : ∀ v, given = some v → v.isJson = true)
    (failed : check.toRule given args = .error fault) :
    ∃ v, given = some v ∧ Overflow v fault := by
  cases given with
  | none => cases failed
  | some v =>
    exact ⟨v, rfl, overflow_of_passes known takes (json v rfl) (map_eq_error_iff.mp failed)⟩

/-- Holding a field against a sound constraint fails only on its value. -/
theorem overflow_of_breach? (sound : Sound c) (json : ∀ v, field.value = some v → v.isJson = true)
    (failed : breach? RuleSet.builtIn [] pattern field c = .error fault) :
    ∃ v, field.value = some v ∧ Overflow v fault := by
  unfold breach? at failed
  split at failed
  next => cases failed
  next =>
    rcases sound with same | ⟨check, known, same, takes⟩
    · simp only [same, find?_required] at failed
      rcases bind_eq_error_iff.mp failed with own | ⟨_, _, failed⟩
      · cases own
      · split at failed
        all_goals cases failed
    · simp only [same, find?_name] at failed
      rcases bind_eq_error_iff.mp failed with own | ⟨_, _, failed⟩
      · exact overflow_of_toRule known takes json own
      · split at failed
        all_goals cases failed

/-! ### Fields -/

/-- A text of digits that denotes no position: it is too long, or has a digit that is not
decimal. -/
def Unreadable (segment : String) : Prop :=
  (segment ≠ "" ∧ ∀ c ∈ segment.toList, Text.isDigit c = true) ∧
    ∃ cause, Number.readPosition segment = .error cause

theorem unreadable_of_step? {given : Option Value} (failed : step? segment given = .error fault) :
    (∃ cause, fault = .numeral cause) ∧ Unreadable segment := by
  unfold step? at failed
  split at failed
  next => cases failed
  next => cases failed
  next =>
    split at failed
    next => cases failed
    next =>
      split at failed
      next digits =>
        split at failed
        next => cases failed
        next cause refused =>
          cases failed
          exact ⟨⟨cause, rfl⟩, allDigits_iff.mp digits, cause, refused⟩
      next => cases failed

theorem unreadable_of_follow (failed : follow segment field = .error fault) :
    (∃ cause, fault = .numeral cause) ∧ Unreadable segment := by
  unfold follow at failed
  split at failed
  · cases failed
  · rcases bind_eq_error_iff.mp failed with failed | ⟨_, _, done⟩
    · exact unreadable_of_step? failed
    · cases done

theorem unreadable_of_followAll {segments : List String} : ∀ {start : List Field},
    followAll segments start = .error fault →
    (∃ cause, fault = .numeral cause) ∧ ∃ segment ∈ segments, Unreadable segment := by
  induction segments with
  | nil =>
    intro start failed
    cases failed
  | cons segment rest ih =>
    intro start failed
    rcases bind_eq_error_iff.mp failed with failed | ⟨next, _, failed⟩
    · obtain ⟨field, _, own⟩ := exists_of_mapM_eq_error failed
      obtain ⟨cause, unreadable⟩ := unreadable_of_follow own
      exact ⟨cause, segment, List.mem_cons_self .., unreadable⟩
    · obtain ⟨cause, other, inside, unreadable⟩ := ih failed
      exact ⟨cause, other, List.mem_cons_of_mem _ inside, unreadable⟩

/-- A path that does not resolve has a segment of digits that denotes no position. -/
theorem unreadable_of_fields (failed : fields data pattern = .error fault) :
    (∃ cause, fault = .numeral cause) ∧ ∃ segment ∈ Path.segments pattern, Unreadable segment :=
  unreadable_of_followAll failed

/-! ### Evaluations -/

/-- What a definition says can be read, and all that it says is sound. -/
def Defines (definition : Value) : Prop :=
  ∃ constraints, read definition = .ok constraints ∧ ∀ c ∈ constraints, Sound c

theorem readKnown_exists {definition : Value} (defines : Defines definition) :
    ∃ constraints, readKnown RuleSet.builtIn definition = .ok constraints ∧
      ∀ c ∈ constraints, Sound c := by
  obtain ⟨constraints, given, sound⟩ := defines
  have known := readKnown_eq_ok_iff.mpr ⟨given, fun c inside => (sound c inside).known⟩
  exact ⟨constraints, known, sound⟩

/-- Holding what a path resolves to against sound constraints fails on an integer of the
data, or on a segment of the path. -/
theorem overflow_of_breachesOf {text : String} {constraints : List Constraint}
    (json : data.isJson = true) (sound : ∀ c ∈ constraints, Sound c)
    (failed : breachesOf RuleSet.builtIn [] extent data (.text text, constraints) =
      .error fault) :
    (∃ cause, fault = .numeral cause) ∧
      (data.Oversized ∨ ∃ segment ∈ Path.segments text, Unreadable segment) := by
  rcases fault_of_breachesOf failed with unnamed | ⟨_, ⟨⟩, failed | ⟨held, resolved, failed⟩⟩
  · cases unnamed
  · obtain ⟨cause, unreadable⟩ := unreadable_of_fields failed
    exact ⟨cause, .inr unreadable⟩
  · obtain ⟨field, member, c, constrained, failed⟩ := failed
    have held := at?_of_mem_fields json resolved field member
    obtain ⟨v, value, cause, large⟩ := overflow_of_breach? (sound c constrained)
      (fun v value => (held v value).elim fun _ there => Value.isJson_at json there) failed
    obtain ⟨place, there⟩ := held v value
    exact ⟨cause, .inl (large.of_at? there)⟩

/-- **An evaluation fails** on an integer of the data that is too large, or on a segment of
digits in a path that denotes no position, and on nothing else. -/
theorem overflow_of_evaluate {texts : List String} {entries : List (Value × Value)}
    (json : data.isJson = true) (paths : entries.map (·.1) = texts.map Value.text)
    (defines : ∀ entry ∈ entries, Defines entry.2)
    (failed : evaluate RuleSet.builtIn [] extent data (.map entries) = .error fault) :
    (∃ cause, fault = .numeral cause) ∧
      (data.Oversized ∨ ∃ text ∈ texts, ∃ segment ∈ Path.segments text, Unreadable segment) := by
  obtain ⟨⟨path, definition⟩, inside, failed⟩ := fault_of_evaluate failed
  obtain ⟨constraints, known, sound⟩ := readKnown_exists (defines _ inside)
  rcases failed with refused | ⟨others, same, failed⟩
  · -- every definition can be read
    cases refused.symm.trans known
  · obtain rfl : constraints = others := Except.ok.inj (known.symm.trans same)
    obtain ⟨text, given, rfl⟩ : ∃ text ∈ texts, Value.text text = path :=
      List.mem_map.mp (paths ▸ List.mem_map_of_mem inside)
    obtain ⟨cause, reason⟩ := overflow_of_breachesOf json sound failed
    exact ⟨cause, reason.imp_right fun unreadable => ⟨text, given, unreadable⟩⟩

end Permit.Constraint
