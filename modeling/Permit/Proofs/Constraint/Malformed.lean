import Permit.Proofs.Constraint.Rewording
import Permit.Proofs.Constraint.Totality
import Permit.Proofs.Constraint.Trials
import Permit.Proofs.Validation

/-!
Rules that are not well defined. A definition that cannot be read and a rule that is not known
are refused before anything is tried. The arguments of a rule are looked at only when it is
tried, and a bound is looked at only where there is something to compare it with
(`Check.noticed_iff`); so `Malformed` says of data as well as of definitions what is wrong.

* `evaluate_of_malformed`: what is malformed ends every evaluation of all rules in a fault;
* `definition_of_evaluate`: a fault is one of a definition, if nothing else is out of order;
* `malformed_refused`: so it is never reported as data that break the rules.

A bound that is no number passes unnoticed for a value that has no size: the value breaks the
rule (`malformed_overlooked`).
-/
namespace Permit.Constraint

open Outcome

variable {rules : RuleSet} {wordings : Wordings} {data v : Value} {args : List String}
  {c : Constraint} {entries : List (Value × Value)} {fault : Fault}

/-! ### Arguments -/

/-- Whether a check finds something in a value to compare its argument with. -/
def Check.Measures (check : Check) (v : Value) : Prop :=
  match check with
  | .atLeast => (length? v).isSome = true
  | .atMost => (length? v).isSome = true
  | .above => ∃ x, number? v = .ok (some x)
  | .below => ∃ x, number? v = .ok (some x)
  | _ => False

/-- Arguments without a pattern, or with one that is against the grammar of patterns. -/
def Unpatterned : List String → Prop
  | [] => True
  | pattern :: _ => pattern = "" ∨
    ∃ fault, Pattern.parse pattern = .error fault ∧ fault.kind? = none

theorem numericArg_malformed (rule : String)
    (bad : ¬ ∃ arg x, args = [arg] ∧ Number.readFloat? arg = some x) :
    ∃ d, numericArg rule args = .error (.definition d) := by
  unfold numericArg
  split
  next arg =>
    split
    next x reads => exact absurd ⟨arg, x, rfl, reads⟩ bad
    next => exact ⟨_, rfl⟩
  next => exact ⟨_, rfl⟩

theorem checkLength_malformed {rule : String}
    {holds : Number.Binary64 → Number.Binary64 → Bool}
    (bad : ¬ ∃ arg x, args = [arg] ∧ Number.readFloat? arg = some x) :
    (∃ d, checkLength rule holds args v = .error (.definition d)) ↔
      (length? v).isSome = true := by
  obtain ⟨d, refused⟩ := numericArg_malformed rule bad
  unfold checkLength
  cases length? v with
  | none => simp
  | some n =>
    rw [refused]
    exact iff_of_true ⟨d, rfl⟩ rfl

theorem checkNumber_malformed {rule : String}
    {holds : Number.Binary64 → Number.Binary64 → Bool}
    (bad : ¬ ∃ arg x, args = [arg] ∧ Number.readFloat? arg = some x) :
    (∃ d, checkNumber rule holds args v = .error (.definition d)) ↔
      ∃ x, number? v = .ok (some x) := by
  obtain ⟨d, refused⟩ := numericArg_malformed rule bad
  unfold checkNumber
  cases found : number? v with
  | error fault =>
    obtain ⟨cause, rfl⟩ := (overflow_of_number? found).1
    simp [bind, Except.bind]
  | ok number =>
    cases number with
    | none => simp [bind, Except.bind, pure, Except.pure]
    | some x =>
      rw [refused]
      exact iff_of_true ⟨d, rfl⟩ ⟨x, rfl⟩

/-- **A bound that is no number** is noticed just where there is something to compare it with. -/
theorem Check.noticed_iff {check : Check} (bad : ¬ check.Takes args) :
    (∃ d, check.passes args v = .error (.definition d)) ↔ check.Measures v := by
  obtain ⟨bound, unread⟩ := Classical.not_imp.mp bad
  cases check with
  | atLeast | atMost =>
    simp only [Check.passes, Check.Measures]
    exact checkLength_malformed unread
  | above | below =>
    simp only [Check.passes, Check.Measures]
    exact checkNumber_malformed unread
  | _ => cases bound

theorem Check.noticed_pattern (bad : Unpatterned args) :
    ∃ d, Check.pattern.passes args v = .error (.definition d) := by
  simp only [Check.passes]
  unfold checkPattern
  split
  next => exact ⟨_, rfl⟩
  next pattern rest =>
    split
    next => exact ⟨_, rfl⟩
    next filled =>
      obtain ⟨fault, refused, own⟩ := bad.resolve_left filled
      simp only [refused, own]
      exact ⟨_, rfl⟩

/-! ### Definitions -/

/-- The checks that look at their arguments are known by their names. -/
def RuleSet.Checks (rules : RuleSet) : Prop :=
  ∀ check : Check, check.takesNumber = true ∨ check = .pattern →
    rules.find? check.name = some check.toRule

/-- A constraint that shows, when it is tried on a value, to have arguments that it does not
take. -/
inductive Misused (v : Value) : Constraint → Prop where
  | bound {check : Check} {args : List String} :
    ¬ check.Takes args → check.Measures v → Misused v ⟨check.name, args⟩
  | pattern {args : List String} : Unpatterned args → Misused v ⟨Check.pattern.name, args⟩

/-- Something in what is declared is not well defined: a definition, the name of a rule, or
the arguments of a rule for a value that the data have. -/
inductive Malformed (rules : RuleSet) (data : Value) (entries : List (Value × Value)) : Prop where
  | unread {entry : Value × Value} : entry ∈ entries → tokens? entry.2 = none →
    Malformed rules data entries
  | unknown {entry : Value × Value} {constraints : List Constraint} {c : Constraint} :
    entry ∈ entries → read entry.2 = .ok constraints → c ∈ constraints →
    rules.find? c.rule = none → Malformed rules data entries
  | misused {entry : Value × Value} {own : List Trial} {t : Trial} {v : Value} :
    entry ∈ entries → trialsOf data entry = .ok own → t ∈ own → t.field.value = some v →
    Misused v t.constraint → Malformed rules data entries

/-- What is declared is in order otherwise: patterns resolve, what cannot be read can at least be
quoted, rules that are tried answer or tell that they are not well defined, and there are words
for what breaks them. -/
structure Orderly (rules : RuleSet) (wordings : Wordings) (data : Value)
    (entries : List (Value × Value)) : Prop where
  resolved : ∀ entry ∈ entries, ∃ pattern held, entry.1 = .text pattern ∧
    fields data pattern = .ok held
  quoted : ∀ entry ∈ entries, tokens? entry.2 = none → ∃ shown, entry.2.quote = .ok shown
  answers : ∀ entry ∈ entries, ∀ own, trialsOf data entry = .ok own → ∀ t ∈ own,
    t.looks = true → ∀ fault, t.answer rules = .error fault → ∃ d, fault = .definition d
  worded : ∀ pattern field rule args, ∃ text, wordings.text pattern field rule args = .ok text

/-- A check that is tried on a value answers whether the value passes. -/
theorem answer_of_check {check : Check} {t : Trial} (given : t.field.value = some v)
    (found : rules.find? t.constraint.rule = some check.toRule) :
    t.answer rules = (check.passes t.constraint.args v).map .bool := by
  simp only [Trial.answer, found, given]
  rfl

theorem answer_of_misused (checks : rules.Checks) {t : Trial} (given : t.field.value = some v)
    (misused : Misused v t.constraint) : ∃ d, t.answer rules = .error (.definition d) := by
  obtain ⟨pattern, field, c⟩ := t
  cases misused with
  | @bound check args bad measures =>
    obtain ⟨d, refused⟩ := (Check.noticed_iff bad).mpr measures
    have found := checks check (.inl (Classical.not_imp.mp bad).1)
    exact ⟨d, (answer_of_check given found).trans (congrArg (Except.map Value.bool) refused)⟩
  | pattern bad =>
    obtain ⟨d, refused⟩ := Check.noticed_pattern bad
    have found := checks .pattern (.inr rfl)
    exact ⟨d, (answer_of_check given found).trans (congrArg (Except.map Value.bool) refused)⟩

/-! ### Evaluations -/

theorem tokens?_of_read {definition : Value} {constraints : List Constraint}
    (given : read definition = .ok constraints) : ∃ tokens, tokens? definition = some tokens := by
  unfold read at given
  split at given
  next tokens some => exact ⟨tokens, some⟩
  next => split at given <;> cases given

/-- **What is malformed** ends every evaluation of all rules in a fault. -/
theorem evaluate_of_malformed (checks : rules.Checks) (malformed : Malformed rules data entries) :
    ∃ fault, evaluate rules wordings .all data (.map entries) = .error fault := by
  cases outcome : evaluate rules wordings .all data (.map entries) with
  | error fault => exact ⟨fault, rfl⟩
  | ok found =>
    -- then every definition has been read, and every rule that was tried has answered
    exfalso
    cases malformed with
    | unread inside unreadable =>
      obtain ⟨constraints, known⟩ := readKnown_of_evaluate outcome inside
      obtain ⟨tokens, some⟩ := tokens?_of_read (read_of_readKnown known)
      cases unreadable.symm.trans some
    | @unknown entry constraints c inside given member unknown =>
      obtain ⟨others, known⟩ := readKnown_of_evaluate outcome inside
      obtain ⟨same, known⟩ := readKnown_eq_ok_iff.mp known
      obtain rfl : constraints = others := Except.ok.inj (given.symm.trans same)
      have known := known c member
      rw [unknown] at known
      cases known
    | @misused entry own t v inside tried member given misused =>
      obtain ⟨all, every, reports⟩ := reports_of_evaluate outcome
      obtain ⟨own', tried', among⟩ := trialsOf_subset every inside
      obtain rfl : own = own' := Except.ok.inj (tried.symm.trans tried')
      obtain ⟨d, refused⟩ := answer_of_misused checks given misused
      have looks : t.looks = true := by
        rw [Trial.looks, given]
        rfl
      obtain ⟨answer, answered⟩ := reports.answered t (among member) looks
      cases refused.symm.trans answered

/-- A definition that is refused is not well defined, or cannot even be quoted. -/
theorem definition_of_readKnown {definition : Value}
    (quoted : tokens? definition = none → ∃ shown, definition.quote = .ok shown)
    (failed : readKnown rules definition = .error fault) : ∃ d, fault = .definition d := by
  rcases bind_eq_error_iff.mp failed with failed | ⟨constraints, _, failed⟩
  · unfold read at failed
    split at failed
    next => cases failed
    next unreadable =>
      obtain ⟨shown, quotes⟩ := quoted unreadable
      rw [quotes] at failed
      cases failed
      exact ⟨_, rfl⟩
  · split at failed
    next =>
      cases failed
      exact ⟨_, rfl⟩
    next => cases failed

/-- A fault of trying a rule is that of what it answers, or of the words for it. -/
theorem fault_of_breach? {pattern : String} {field : Field}
    (failed : breach? rules wordings pattern field c = .error fault) :
    (Trial.looks ⟨pattern, field, c⟩ = true ∧
        Trial.answer rules ⟨pattern, field, c⟩ = .error fault) ∨
      wordings.text pattern field.path c.rule c.args = .error fault := by
  rw [breach?_eq] at failed
  split at failed
  next looks =>
    rcases bind_eq_error_iff.mp failed with failed | ⟨answer, _, failed⟩
    · exact .inl ⟨looks, failed⟩
    · split at failed
      · cases failed
      · rcases bind_eq_error_iff.mp failed with failed | ⟨_, _, done⟩
        · exact .inr failed
        · cases done
  next => cases failed

/-- **A fault of an evaluation** is one of a definition, if nothing else is out of order. -/
theorem definition_of_evaluate (orderly : Orderly rules wordings data entries)
    (failed : evaluate rules wordings .all data (.map entries) = .error fault) :
    ∃ d, fault = .definition d := by
  obtain ⟨entry, inside, refused | ⟨constraints, known, failed⟩⟩ := fault_of_evaluate failed
  · exact definition_of_readKnown (orderly.quoted entry inside) refused
  obtain ⟨pattern, held, named, resolved⟩ := orderly.resolved entry inside
  have text : patternText entry.1 = .ok pattern := congrArg patternText named
  rcases fault_of_breachesOf failed with unnamed | ⟨pattern', named', failed⟩
  · cases text.symm.trans unnamed
  obtain rfl : pattern = pattern' := Except.ok.inj (text.symm.trans named')
  rcases failed with unresolved | ⟨held', same, field, there, c, constrained, failed⟩
  · cases resolved.symm.trans unresolved
  obtain rfl : held = held' := Except.ok.inj (resolved.symm.trans same)
  rcases fault_of_breach? failed with ⟨looks, failed⟩ | untold
  · have tried : trialsOf data entry =
        .ok (held.flatMap fun field => constraints.map fun c => ⟨pattern, field, c⟩) := by
      simp only [trialsOf, text, read_of_readKnown known, resolved, bind, Except.bind]
      rfl
    refine orderly.answers entry inside _ tried _ ?_ looks fault failed
    exact List.mem_flatMap.mpr ⟨field, there, List.mem_map_of_mem constrained⟩
  · obtain ⟨words, told⟩ := orderly.worded pattern field.path c.rule c.args
    cases told.symm.trans untold

/-- **What is malformed is refused**, and never reported as data that break the rules: the
evaluator ends in a fault, of a definition if nothing else is out of order. -/
theorem malformed_refused {s : Session} (checks : s.rules.Checks)
    (malformed : Malformed s.rules data entries) (wordings : Wordings)
    (formatter : Option Formatter) :
    let inquiry : Inquiry := { data, rules := .map entries, wordings, formatter }
    ∃ fault, ((Evaluator.engine .all inquiry).run s).1 = .error fault ∧
      (Orderly s.rules wordings data entries → ∃ d, fault = .definition d) ∧
      ((∀ errors, s.rules.Avoids (.rejected errors)) →
        (∀ errors, wordings.Avoids (.rejected errors)) → ∀ errors, fault ≠ .rejected errors) := by
  intro inquiry
  obtain ⟨fault, failed⟩ := evaluate_of_malformed checks malformed
  refine ⟨fault, Evaluator.error_of_evaluate failed, ?_, ?_⟩
  · exact fun orderly => definition_of_evaluate orderly failed
  · rintro answers worded errors rfl
    exact evaluate_ne_signal_worded (.rejected errors) (answers errors) (worded errors) failed

theorem not_takes_lots : ¬ Check.atMost.Takes ["lots"] := by
  intro takes
  obtain ⟨_, x, ⟨⟩, reads⟩ := takes rfl
  have none : (Number.readFloat? "lots").isSome = false := by decide +kernel
  rw [reads] at none
  cases none

/-- A bound that is no number, for a text, beside a rule that is well defined. -/
theorem malformed_refused_bound :
    ∃ d, ((Evaluator.engine .all {
        data := .record [("m", .text "x"), ("n", .text "abc")]
        rules := .map [(.text "m", .text "string"), (.text "n", .text "max:lots")] }).run {}).1 =
      .error (.definition d) := by
  have checks : ({} : Session).rules.Checks := fun check _ => find?_name check
  have misused : Misused (.text "abc") ⟨"max", ["lots"]⟩ := .bound not_takes_lots rfl
  obtain ⟨d, refused⟩ : ∃ d, Trial.answer ({} : Session).rules
      ⟨"n", ⟨"n", some (.text "abc")⟩, ⟨"max", ["lots"]⟩⟩ = .error (.definition d) :=
    answer_of_misused checks rfl misused
  have malformed : Malformed ({} : Session).rules
      (.record [("m", .text "x"), ("n", .text "abc")])
      [(.text "m", .text "string"), (.text "n", .text "max:lots")] :=
    .misused (.tail _ (.head _)) rfl (.head _) rfl misused
  have orderly : Orderly ({} : Session).rules [] (.record [("m", .text "x"), ("n", .text "abc")])
      [(.text "m", .text "string"), (.text "n", .text "max:lots")] := by
    refine ⟨?_, ?_, ?_, fun _ field rule _ => ⟨plainWording field rule, rfl⟩⟩
    · simp only [List.forall_mem_cons]
      exact ⟨⟨"m", _, rfl, rfl⟩, ⟨"n", _, rfl, rfl⟩, List.forall_mem_nil _⟩
    · simp only [List.forall_mem_cons]
      exact ⟨nofun, nofun, List.forall_mem_nil _⟩
    · simp only [List.forall_mem_cons]
      refine ⟨?_, ?_, List.forall_mem_nil _⟩
      · rintro _ ⟨⟩ t inside _ fault failed
        obtain rfl := List.mem_singleton.mp inside
        cases failed
      · rintro _ ⟨⟩ t inside _ fault failed
        obtain rfl := List.mem_singleton.mp inside
        exact ⟨d, Except.error.inj (failed.symm.trans refused)⟩
  obtain ⟨fault, refused, definition, _⟩ := malformed_refused checks malformed [] none
  obtain ⟨d, rfl⟩ := definition orderly
  exact ⟨d, refused⟩

/-- A bound that is no number, for a number, which has no length to compare with it: the number
is reported to break the rule. -/
theorem malformed_overlooked :
    let inquiry : Inquiry := {
      data := .record [("n", .int 5)]
      rules := .map [(.text "n", .text "max:lots")] }
    read (.text "max:lots") = .ok [⟨Check.atMost.name, ["lots"]⟩] ∧
      ¬ Check.atMost.Takes ["lots"] ∧
      fields inquiry.data "n" = .ok [⟨"n", some (.int 5)⟩] ∧
      ((Evaluator.engine .all inquiry).run {}).1 =
        .error (.rejected (breachList [⟨"max validation failed on n", "n", "max"⟩])) := by
  intro inquiry
  have found : evaluate ({} : Session).rules [] .all inquiry.data inquiry.rules =
      .ok [⟨"max validation failed on n", "n", "max"⟩] := rfl
  exact ⟨rfl, not_takes_lots, rfl, Evaluator.rejected_of_evaluate rfl found⟩

end Permit.Constraint
