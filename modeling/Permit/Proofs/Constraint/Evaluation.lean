import Permit.Constraint.Evaluation
import Permit.Proofs.Constraint.Check

namespace Permit.Constraint

open Outcome

variable {rules : RuleSet} {wordings : Wordings} {extent : Extent} {data definition value : Value}
  {pattern : String} {field : Field} {c : Constraint} {entries : List (Value × Value)}
  {fault : Fault}

def Passes (rules : RuleSet) (value : Value) (c : Constraint) : Prop :=
  ∃ f result, rules.find? c.rule = some f ∧ f (some value) c.args = .ok result ∧
    result.isTrue = true

theorem gather_eq_nil_iff {α : Type} {find : α → Except Fault (List Breach)} {xs : List α} :
    gather extent find xs = .ok [] ↔ ∀ x ∈ xs, find x = .ok [] := by
  induction xs with
  | nil => simp [gather]
  | cons x rest ih =>
    have goesOn : extent.endsWith [] = false := by simp [Extent.endsWith]
    rw [List.forall_mem_cons, ← ih, gather, bind_eq_ok_iff]
    constructor
    · rintro ⟨found, step, h⟩
      split at h
      next ends =>
        cases h
        rw [goesOn] at ends
        cases ends
      next =>
        obtain ⟨others, run, none⟩ := bind_eq_ok_iff.mp h
        obtain ⟨rfl, rfl⟩ := List.append_eq_nil_iff.mp (Except.ok.inj none)
        exact ⟨step, run⟩
    · rintro ⟨step, run⟩
      refine ⟨[], step, ?_⟩
      rw [goesOn, run]
      rfl

/-- A constraint that finds nothing to say of a field that is there has passed on it. -/
theorem passes_of_breach? (there : field.value = some value)
    (none : breach? rules wordings pattern field c = .ok []) : Passes rules value c := by
  simp only [breach?, there, Option.isNone_some, Bool.false_and, Bool.false_eq_true, if_false]
    at none
  cases found : rules.find? c.rule with
  | none =>
    rw [found] at none
    cases none
  | some f =>
    simp only [found] at none
    obtain ⟨result, answer, none⟩ := bind_eq_ok_iff.mp none
    refine ⟨f, result, found, answer, ?_⟩
    by_contra fails
    rw [if_neg fails] at none
    obtain ⟨text, _, some⟩ := bind_eq_ok_iff.mp none
    cases some

/-- A definition that is read says what its rules are, and all of them are known. -/
theorem readKnown_eq_ok_iff {constraints : List Constraint} :
    readKnown rules definition = .ok constraints ↔
      read definition = .ok constraints ∧ ∀ c ∈ constraints, (rules.find? c.rule).isSome := by
  have all_known {constraints : List Constraint} :
      (constraints.find? fun c => (rules.find? c.rule).isNone) = none ↔
        ∀ c ∈ constraints, (rules.find? c.rule).isSome := by
    simp [Option.isSome_iff_ne_none]
  rw [readKnown, bind_eq_ok_iff]
  constructor
  · rintro ⟨read, given, known⟩
    split at known
    next => cases known
    next none =>
      cases known
      exact ⟨given, all_known.mp none⟩
  · rintro ⟨given, known⟩
    exact ⟨constraints, given, by rw [all_known.mpr known]; rfl⟩

theorem read_of_readKnown {constraints : List Constraint}
    (known : readKnown rules definition = .ok constraints) :
    read definition = .ok constraints := (readKnown_eq_ok_iff.mp known).1

/-- **An evaluation without breaches.** The definition of every pattern has been read, and
all its rules have passed on all values that the pattern stands for. -/
theorem passes_of_evaluate (none : evaluate rules wordings extent data (.map entries) = .ok [])
    (inside : (.text pattern, definition) ∈ entries) :
    ∃ constraints found, read definition = .ok constraints ∧ fields data pattern = .ok found ∧
      ∀ field ∈ found, ∀ value, field.value = some value →
        ∀ c ∈ constraints, Passes rules value c := by
  obtain ⟨readings, all, none⟩ := bind_eq_ok_iff.mp none
  obtain ⟨reading, listed, own⟩ := exists_of_mem_mapM all inside
  obtain ⟨constraints, known, same⟩ := bind_eq_ok_iff.mp own
  cases same
  have here := gather_eq_nil_iff.mp none _ listed
  obtain ⟨text, given, here⟩ := bind_eq_ok_iff.mp here
  cases given
  obtain ⟨found, resolved, here⟩ := bind_eq_ok_iff.mp here
  refine ⟨constraints, found, read_of_readKnown known, resolved, ?_⟩
  intro field member value there c constrained
  have clean := gather_eq_nil_iff.mp (gather_eq_nil_iff.mp here field member) c constrained
  exact passes_of_breach? there clean

theorem exists_of_gather {α : Type} {find : α → Except Fault (List Breach)} {xs : List α}
    (failed : gather extent find xs = .error fault) : ∃ x ∈ xs, find x = .error fault := by
  induction xs with
  | nil => cases failed
  | cons x rest ih =>
    rcases bind_eq_error_iff.mp failed with own | ⟨found, _, failed⟩
    · exact ⟨x, List.mem_cons_self .., own⟩
    · split at failed
      · cases failed
      · rcases bind_eq_error_iff.mp failed with others | ⟨_, _, done⟩
        · obtain ⟨other, inside, own⟩ := ih others
          exact ⟨other, List.mem_cons_of_mem _ inside, own⟩
        · cases done

/-- Trying the rules on a pattern fails at the pattern, or at one of its fields and rules. -/
theorem fault_of_breachesOf {entry : Value × List Constraint}
    (failed : breachesOf rules wordings extent data entry = .error fault) :
    patternText entry.1 = .error fault ∨ ∃ pattern, patternText entry.1 = .ok pattern ∧
      (fields data pattern = .error fault ∨ ∃ held, fields data pattern = .ok held ∧
        ∃ field ∈ held, ∃ c ∈ entry.2,
          breach? rules wordings pattern field c = .error fault) := by
  rcases bind_eq_error_iff.mp failed with unnamed | ⟨pattern, named, failed⟩
  · exact .inl unnamed
  refine .inr ⟨pattern, named, ?_⟩
  rcases bind_eq_error_iff.mp failed with unresolved | ⟨held, resolved, failed⟩
  · exact .inl unresolved
  obtain ⟨field, there, failed⟩ := exists_of_gather failed
  exact .inr ⟨held, resolved, field, there, exists_of_gather failed⟩

/-- **An evaluation fails** at an entry: at its definition, or at its pattern. -/
theorem fault_of_evaluate
    (failed : evaluate rules wordings extent data (.map entries) = .error fault) :
    ∃ entry ∈ entries, readKnown rules entry.2 = .error fault ∨
      ∃ constraints, readKnown rules entry.2 = .ok constraints ∧
        breachesOf rules wordings extent data (entry.1, constraints) = .error fault := by
  rcases bind_eq_error_iff.mp failed with failed | ⟨readings, listed, failed⟩
  · obtain ⟨entry, inside, own⟩ := exists_of_mapM_eq_error failed
    rcases bind_eq_error_iff.mp own with refused | ⟨_, _, done⟩
    · exact ⟨entry, inside, .inl refused⟩
    · cases done
  · obtain ⟨reading, member, failed⟩ := exists_of_gather failed
    obtain ⟨entry, inside, own⟩ := exists_of_mem_of_mapM listed member
    obtain ⟨constraints, known, same⟩ := bind_eq_ok_iff.mp own
    cases same
    exact ⟨entry, inside, .inr ⟨constraints, known, failed⟩⟩

theorem readKnown_of_evaluate {found : List Breach} {entry : Value × Value}
    (run : evaluate rules wordings extent data (.map entries) = .ok found)
    (inside : entry ∈ entries) : ∃ constraints, readKnown rules entry.2 = .ok constraints := by
  obtain ⟨readings, listed, _⟩ := bind_eq_ok_iff.mp run
  obtain ⟨_, _, own⟩ := exists_of_mem_mapM listed inside
  obtain ⟨constraints, known, _⟩ := bind_eq_ok_iff.mp own
  exact ⟨constraints, known⟩

theorem gather_ne_error {α : Type} {find : α → Except Fault (List Breach)}
    (h : ∀ x, find x ≠ .error fault) {xs : List α} : gather extent find xs ≠ .error fault := by
  intro failed
  obtain ⟨x, _, own⟩ := exists_of_gather failed
  exact h x own

section

variable (signal : fault.IsSignal)

include signal

theorem step?_ne_signal {segment : String} {given : Option Value} :
    step? segment given ≠ .error fault := by
  unfold step?
  repeat' split
  all_goals rintro ⟨⟩ <;> cases signal

theorem follow_ne_signal {segment : String} : follow segment field ≠ .error fault := by
  unfold follow
  split
  · rintro ⟨⟩
  · exact bind_ne_error (step?_ne_signal signal) fun found => by rintro ⟨⟩

theorem fields_ne_signal : fields data pattern ≠ .error fault := by
  rw [fields]
  generalize Path.segments pattern = segments
  generalize [(⟨"", some data⟩ : Field)] = start
  induction segments generalizing start with
  | nil => rintro ⟨⟩
  | cons segment rest ih =>
    exact bind_ne_error (mapM_ne_error fun field => follow_ne_signal signal) fun next => ih _

theorem breach?_ne_signal (avoids : rules.Avoids fault) :
    breach? rules [] pattern field c ≠ .error fault := by
  unfold breach?
  split
  · rintro ⟨⟩
  · split
    next =>
      rintro ⟨⟩
      cases signal
    next f found =>
      refine bind_ne_error (avoids _ f found _ _) fun result => ?_
      split
      · rintro ⟨⟩
      · exact bind_ne_error (by rintro ⟨⟩) fun text => by rintro ⟨⟩

theorem readAll_ne_signal : readAll rules (.map entries) ≠ .error fault := by
  refine mapM_ne_error fun entry => bind_ne_error ?_ fun constraints => by rintro ⟨⟩
  refine bind_ne_error ?_ fun read => ?_
  · unfold read
    repeat' split
    all_goals rintro ⟨⟩ <;> cases signal
  · split
    all_goals rintro ⟨⟩ <;> cases signal

/-- An evaluation ends in no signal, unless a rule itself ends in it. -/
theorem evaluate_ne_signal (avoids : rules.Avoids fault) :
    evaluate rules [] extent data (.map entries) ≠ .error fault := by
  refine bind_ne_error (readAll_ne_signal signal) fun readings => gather_ne_error fun reading => ?_
  refine bind_ne_error ?_ fun pattern => bind_ne_error (fields_ne_signal signal) fun found => ?_
  · unfold patternText
    split
    all_goals rintro ⟨⟩ <;> cases signal
  · exact gather_ne_error fun field => gather_ne_error fun c => breach?_ne_signal signal avoids

end

end Permit.Constraint
