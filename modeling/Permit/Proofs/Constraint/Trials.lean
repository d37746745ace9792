import Mathlib.Data.List.Forall2
import Permit.Proofs.Constraint.Evaluation

/-!
Evaluations as searches. Every rule on every field that a pattern stands for is a trial, in the
order of the patterns, then of the fields, then of the rules (`trials`).

* `reports_of_evaluate`: an evaluation of all rules tells of the trials that fail, one by one
  and in their order;
* `evaluate_first`: an evaluation up to the first breach finds the first of those that one of
  all rules finds, and `evaluate_eq_nil_congr`: it finds none just if that finds none.
-/
namespace Permit.Constraint

open Outcome

structure Trial where
  pattern : String
  field : Field
  constraint : Constraint
deriving Repr, Inhabited

namespace Trial

/-- Whether the rule of a trial looks at the field: only one looks at fields that are absent. -/
def looks (t : Trial) : Bool := t.field.value.isSome || t.constraint.rule == required

def answer (rules : RuleSet) (t : Trial) : Except Fault Value :=
  match rules.find? t.constraint.rule with
  | none => .error (.definition (.unknownRule t.constraint.rule))
  | some f => f t.field.value t.constraint.args

/-- Whether a trial fails: its rule looks at the field and gives an answer that does not hold. -/
def fails (rules : RuleSet) (t : Trial) : Bool :=
  t.looks && (t.answer rules).toOption.any (!·.isTrue)

structure ToldBy (wordings : Wordings) (t : Trial) (b : Breach) : Prop where
  field : b.field = t.field.path
  rule : b.rule = t.constraint.rule
  message : wordings.text t.pattern t.field.path t.constraint.rule t.constraint.args =
    .ok b.message

end Trial

def trialsOf (data : Value) (entry : Value × Value) : Except Fault (List Trial) := do
  let pattern ← patternText entry.1
  let constraints ← read entry.2
  let found ← fields data pattern
  return found.flatMap fun field => constraints.map fun c => ⟨pattern, field, c⟩

def trials (data : Value) : List (Value × Value) → Except Fault (List Trial)
  | [] => .ok []
  | entry :: rest => do return (← trialsOf data entry) ++ (← trials data rest)

/-- Breaches tell of the trials that fail, one by one and in their order; no rule that looks at
its field has been without an answer. -/
structure Reports (rules : RuleSet) (wordings : Wordings) (all : List Trial)
    (breaches : List Breach) : Prop where
  answered : ∀ t ∈ all, t.looks = true → ∃ answer, t.answer rules = .ok answer
  told : List.Forall₂ (Trial.ToldBy wordings) (all.filter (Trial.fails rules)) breaches

variable {rules : RuleSet} {wordings : Wordings} {extent : Extent} {data declared : Value}
  {pattern : String} {field : Field} {c : Constraint} {entries : List (Value × Value)}
  {found : List Breach}

theorem Reports.nil : Reports rules wordings [] [] := ⟨List.forall_mem_nil _, .nil⟩

theorem Reports.append {all all' : List Trial} {found' : List Breach}
    (h : Reports rules wordings all found) (h' : Reports rules wordings all' found') :
    Reports rules wordings (all ++ all') (found ++ found') := by
  refine ⟨List.forall_mem_append.mpr ⟨h.answered, h'.answered⟩, ?_⟩
  rw [List.filter_append]
  exact List.rel_append h.told h'.told

theorem trialsOf_subset {entry : Value × Value} {all : List Trial}
    (listed : trials data entries = .ok all) (inside : entry ∈ entries) :
    ∃ own, trialsOf data entry = .ok own ∧ own ⊆ all := by
  induction entries generalizing all with
  | nil => cases inside
  | cons first rest ih =>
    obtain ⟨own, tried, listed⟩ := bind_eq_ok_iff.mp listed
    obtain ⟨others, remaining, done⟩ := bind_eq_ok_iff.mp listed
    cases done
    rcases List.mem_cons.mp inside with rfl | inside
    · exact ⟨own, tried, List.subset_append_left own others⟩
    · obtain ⟨found, tried, among⟩ := ih remaining inside
      exact ⟨found, tried, fun _ inside => List.mem_append_right own (among inside)⟩

/-! ### All rules -/

/-- A search for all breaches goes on whatever it finds. -/
theorem gather_all_cons {α : Type} {find : α → Except Fault (List Breach)} {x : α} {rest : List α} :
    gather .all find (x :: rest) = .ok found ↔
      ∃ own others, find x = .ok own ∧ gather .all find rest = .ok others ∧
        found = own ++ others := by
  have goesOn (own : List Breach) : Extent.all.endsWith own = false := rfl
  simp only [gather, goesOn, Bool.false_eq_true, if_false, bind_eq_ok_iff]
  constructor
  · rintro ⟨own, first, others, run, done⟩
    exact ⟨own, others, first, run, (Except.ok.inj done).symm⟩
  · rintro ⟨own, others, first, run, rfl⟩
    exact ⟨own, first, others, run, rfl⟩

theorem reports_of_gather {α : Type} {find : α → Except Fault (List Breach)}
    {list : α → List Trial}
    (each : ∀ x own, find x = .ok own → Reports rules wordings (list x) own) {xs : List α} :
    ∀ {found : List Breach}, gather .all find xs = .ok found →
      Reports rules wordings (xs.flatMap list) found := by
  induction xs with
  | nil =>
    intro found run
    cases run
    exact .nil
  | cons x rest ih =>
    intro found run
    obtain ⟨own, others, first, remaining, rfl⟩ := gather_all_cons.mp run
    rw [List.flatMap_cons]
    exact (each x own first).append (ih remaining)

/-- A rule that looks at the field is asked, and words are found for what does not hold. -/
theorem breach?_eq (rules : RuleSet) (wordings : Wordings) (pattern : String) (field : Field)
    (c : Constraint) :
    breach? rules wordings pattern field c =
      if Trial.looks ⟨pattern, field, c⟩ then
        (Trial.answer rules ⟨pattern, field, c⟩) >>= fun answer =>
          if answer.isTrue then .ok []
          else wordings.text pattern field.path c.rule c.args >>= fun message =>
            .ok [⟨message, field.path, c.rule⟩]
      else .ok [] := by
  obtain ⟨path, value⟩ := field
  simp only [breach?, looksAtAbsent, Trial.looks, Trial.answer]
  cases value with
  | none =>
    by_cases asked : (c.rule == required) = true
    · simp only [asked, Bool.not_true, Bool.and_false, Bool.or_true, Bool.false_eq_true, if_true,
        if_false]
      cases rules.find? c.rule <;> rfl
    · simp only [asked, Bool.not_false, Bool.and_true, Option.isNone_none, Option.isSome_none,
        Bool.or_self, Bool.false_eq_true, if_true, if_false]
      rfl
  | some v => cases rules.find? c.rule <;> rfl

theorem reports_of_breach? (run : breach? rules wordings pattern field c = .ok found) :
    Reports rules wordings [⟨pattern, field, c⟩] found := by
  rw [breach?_eq] at run
  constructor
  · intro t inside looks
    obtain rfl := List.mem_singleton.mp inside
    simp only [looks, if_true] at run
    obtain ⟨answer, given, _⟩ := bind_eq_ok_iff.mp run
    exact ⟨answer, given⟩
  · rw [List.filter_singleton, Trial.fails]
    cases looks : Trial.looks ⟨pattern, field, c⟩ with
    | false =>
      rw [looks] at run
      cases run
      exact .nil
    | true =>
      simp only [looks, if_true] at run
      obtain ⟨answer, given, run⟩ := bind_eq_ok_iff.mp run
      simp only [given, Except.toOption, Option.any_some, Bool.true_and]
      cases holds : answer.isTrue with
      | true =>
        simp only [holds, if_true] at run
        cases run
        exact .nil
      | false =>
        simp only [holds, Bool.false_eq_true, if_false] at run
        obtain ⟨message, told, run⟩ := bind_eq_ok_iff.mp run
        cases run
        exact .cons ⟨rfl, rfl, told⟩ .nil

theorem reports_of_breachesOf {key : Value} {definition : Value} {constraints : List Constraint}
    (given : read definition = .ok constraints)
    (run : breachesOf rules wordings .all data (key, constraints) = .ok found) :
    ∃ all, trialsOf data (key, definition) = .ok all ∧ Reports rules wordings all found := by
  obtain ⟨pattern, named, run⟩ := bind_eq_ok_iff.mp run
  obtain ⟨held, resolved, run⟩ := bind_eq_ok_iff.mp run
  refine ⟨held.flatMap fun field => constraints.map fun c => ⟨pattern, field, c⟩, ?_, ?_⟩
  · simp only [trialsOf, named, given, resolved, bind, Except.bind]
    rfl
  · refine reports_of_gather (fun field own run => ?_) run
    rw [List.map_eq_flatMap]
    exact reports_of_gather (fun c own run => reports_of_breach? run) run

/-- **An evaluation of all rules** tells of every trial that fails, in the order of the patterns,
of their fields and of the rules. -/
theorem reports_of_evaluate
    (run : evaluate rules wordings .all data (.map entries) = .ok found) :
    ∃ all, trials data entries = .ok all ∧ Reports rules wordings all found := by
  induction entries generalizing found with
  | nil =>
    cases run
    exact ⟨[], rfl, .nil⟩
  | cons entry rest ih =>
    obtain ⟨readings, listed, run⟩ := bind_eq_ok_iff.mp run
    obtain ⟨reading, others, own, remaining, rfl⟩ := mapM_cons_eq_ok_iff.mp listed
    obtain ⟨here, there, first, later, rfl⟩ := gather_all_cons.mp run
    obtain ⟨constraints, known, same⟩ := bind_eq_ok_iff.mp own
    cases same
    obtain ⟨all, tried, reports⟩ := reports_of_breachesOf (read_of_readKnown known) first
    obtain ⟨all', tried', reports'⟩ := ih (bind_eq_ok_iff.mpr ⟨others, remaining, later⟩)
    exact ⟨all ++ all', by simp only [trials, tried, tried', bind, Except.bind]; rfl,
      reports.append reports'⟩

/-! ### The first breach -/

/-- A search up to the first breach finds the first one of all, if each of its steps does. -/
theorem gather_first {α : Type} {find find' : α → Except Fault (List Breach)}
    (each : ∀ x own, find x = .ok own → find' x = .ok (own.take 1)) {xs : List α} :
    ∀ {found : List Breach}, gather .all find xs = .ok found →
      gather .first find' xs = .ok (found.take 1) := by
  induction xs with
  | nil =>
    intro found run
    cases run
    rfl
  | cons x rest ih =>
    intro found run
    obtain ⟨own, others, first, remaining, rfl⟩ := gather_all_cons.mp run
    rw [gather, each x own first]
    -- a step that finds nothing leaves the first breach to the rest; any other one has it
    cases own with
    | nil =>
      rw [List.nil_append, List.take_nil]
      change (gather .first find' rest >>= fun others => .ok ([] ++ others)) = _
      rw [ih remaining]
      rfl
    | cons b more => rfl

theorem take_breach? (run : breach? rules wordings pattern field c = .ok found) :
    found.take 1 = found := by
  refine List.take_of_length_le ?_
  rw [← (reports_of_breach? run).told.length_eq]
  exact List.length_filter_le ..

/-- **An evaluation up to the first breach** finds the first of all that there are. -/
theorem evaluate_first (run : evaluate rules wordings .all data declared = .ok found) :
    evaluate rules wordings .first data declared = .ok (found.take 1) := by
  obtain ⟨readings, listed, run⟩ := bind_eq_ok_iff.mp run
  refine bind_eq_ok_iff.mpr ⟨readings, listed, gather_first (fun entry own run => ?_) run⟩
  obtain ⟨pattern, named, run⟩ := bind_eq_ok_iff.mp run
  obtain ⟨held, resolved, run⟩ := bind_eq_ok_iff.mp run
  refine bind_eq_ok_iff.mpr ⟨pattern, named, bind_eq_ok_iff.mpr ⟨held, resolved, ?_⟩⟩
  refine gather_first (fun field own run => gather_first (fun c own run => ?_) run) run
  rw [take_breach? run, run]

/-- No breach is found on a pattern if its fields are resolved and no rule finds one. -/
theorem breachesOf_eq_nil_iff {entry : Value × List Constraint} :
    breachesOf rules wordings extent data entry = .ok [] ↔
      ∃ pattern, patternText entry.1 = .ok pattern ∧ ∃ held, fields data pattern = .ok held ∧
        ∀ field ∈ held, ∀ c ∈ entry.2, breach? rules wordings pattern field c = .ok [] := by
  simp only [breachesOf, bind_eq_ok_iff, gather_eq_nil_iff]

/-- Whether an evaluation finds nothing does not depend on where it ends. -/
theorem evaluate_eq_nil_congr (extent extent' : Extent) :
    evaluate rules wordings extent data declared = .ok [] ↔
      evaluate rules wordings extent' data declared = .ok [] := by
  simp only [evaluate, bind_eq_ok_iff, gather_eq_nil_iff, breachesOf_eq_nil_iff]

end Permit.Constraint
