import Permit.Proofs.Authorization.Totality
import Permit.Proofs.Session.Counting

namespace Permit

/-- A fault by which a request is rejected. -/
def Fault.isViolation : Fault → Bool
  | .violation _ => true
  | _ => false

namespace Authorization

open Permit.Action Constraint Outcome

variable {s s' : Session} {permitted data : Value} {rules : List (Value × Value)}
  {n : Counter → Nat} {check : String} {kind : ViolationKind} {fault : Fault}

/-! ### One check -/

/-- What a check adds to the counters of requests by how it ends: it passes, it rejects some
fields, or it fails and adds nothing. -/
inductive Checked (check : String) (kind : ViolationKind) (n : Counter → Nat) :
    Except Fault Unit → Session → Prop where
  | passed {s : Session} : s.Tallied (n + (Counter.authorizations check "allowed").raise) →
    Checked check kind n (.ok ()) s
  | rejected {s : Session} (messages : List FieldMessage) :
    s.Tallied (n + (Counter.authorizations check "rejected").raise +
      (Counter.rejectedFields check).raise messages.length) →
    Checked check kind n (.error (.violation { kind, messages })) s
  | failed {s : Session} {fault : Fault} : fault.isViolation = false → s.Tallied n →
    Checked check kind n (.error fault) s

/-- From a session, an action checks a request. -/
def Checks (check : String) (kind : ViolationKind) (n : Counter → Nat) (action : Action Unit)
    (s : Session) : Prop :=
  Checked check kind n (action.run s).1 (action.run s).2

theorem checks_allowed (tallied : s.Tallied n) :
    Checks check kind n (Session.recordAuthorization check "allowed") s := by
  obtain ⟨s', run, counted⟩ := Session.run_recordAuthorization_no_fields tallied check "allowed"
  rw [Checks, run]
  exact .passed counted

theorem checks_reject (tallied : s.Tallied n) (what : String) (messages : List FieldMessage) :
    Checks check kind n (reject check what kind messages) s := by
  let told := ((log ⟨20, serviceLog, s!"Rejected request with unauthorized {what}: " ++
      Value.quoteTexts (messages.map (·.field)), some check⟩).run
    ((setAttribute rejectedAttribute messages.length).run s).2).2
  have quiet : told.Tallied n :=
    Session.tallied_log _ _ (Session.tallied_setAttribute _ _ _ tallied)
  obtain ⟨s', run, counted⟩ :=
    Session.run_recordAuthorization quiet check "rejected" messages.length
  have rejects : (reject check what kind messages).run s =
      (.error (.violation { kind, messages }), s') := by
    change ((Session.recordAuthorization check "rejected" messages.length >>= fun _ =>
      throw (.violation { kind, messages }) : Action Unit)).run told = _
    rw [run_bind, run]
    rfl
  rw [Checks, rejects]
  exact .rejected messages counted

theorem Checks.within {action : Action Unit} {name : String}
    (checks : Checks check kind n action { s with spans := s.spans.enter name }) :
    Checks check kind n (within name action) s := by
  rw [Checks, run_within]
  rw [Checks] at checks
  generalize action.run { s with spans := s.spans.enter name } = ended at checks
  obtain ⟨outcome, s'⟩ := ended
  cases checks with
  | passed counted => exact .passed (counted.of_eq rfl rfl)
  | rejected messages counted => exact .rejected messages (counted.of_eq rfl rfl)
  | failed other still => exact .failed other (still.of_eq rfl rfl)

/-- A step that counts nothing and rejects nothing stands before a check. -/
theorem Checks.after {α : Type} {action : Action α} {next : α → Action Unit}
    (quiet : Maintains action (Session.Tallied n)) (tallied : s.Tallied n)
    (fails : ∀ fault, (action.run s).1 = .error fault → fault.isViolation = false)
    (continued : ∀ a s', action.run s = (.ok a, s') → s'.Tallied n →
      Checks check kind n (next a) s') :
    Checks check kind n (action >>= next) s := by
  have still := quiet s tallied
  rw [Checks, run_bind]
  cases run : action.run s with
  | mk outcome s' =>
    rw [run] at fails still
    cases outcome with
    | ok a => exact continued a s' run still
    | error fault => exact .failed (fails fault rfl) still

theorem checks_get_bind {next : Session → Action Unit} :
    Checks check kind n (get >>= next) s ↔ Checks check kind n (next s) s := Iff.rfl

theorem isViolation_ofArgument (expectation : String) (given : Value) :
    (Fault.ofArgument expectation given).isViolation = false := by
  unfold Fault.ofArgument
  split <;> rfl

/-- Where anything is declared at all, its paths are read, or it is refused as an argument. -/
theorem normalize_cases (restricted : permitted ≠ .null) (default : String) :
    (∃ rules, normalize default permitted = .ok (some rules)) ∨
      ∃ fault, fault.isViolation = false ∧ normalize default permitted = .error fault := by
  unfold normalize
  split
  next => exact absurd rfl restricted
  next => exact .inr ⟨_, isViolation_ofArgument _ _, rfl⟩
  next => exact .inl ⟨_, rfl⟩
  next =>
    split
    next => exact .inr ⟨_, isViolation_ofArgument _ _, rfl⟩
    next =>
      split
      next => exact .inr ⟨_, rfl, rfl⟩
      next => exact .inl ⟨_, rfl⟩

theorem checks_declared {next : Option (List (Value × Value)) → Action Unit}
    (restricted : permitted ≠ .null) (tallied : s.Tallied n)
    (continued : ∀ rules, normalize s.settings.defaultRule permitted = .ok (some rules) →
      Checks check kind n (next (some rules)) s) :
    Checks check kind n (declared permitted >>= next) s := by
  refine .after (maintains_get_bind fun _ _ => maintains_lift _) tallied ?_ ?_
  · intro fault failed
    rw [run_declared_eq] at failed
    rcases normalize_cases restricted s.settings.defaultRule with
      ⟨rules, read⟩ | ⟨other, plain, refused⟩
    · cases failed.symm.trans read
    · cases failed.symm.trans refused
      exact plain
  · intro found s' run still
    rw [run_declared_eq] at run
    rcases normalize_cases restricted s.settings.defaultRule with
      ⟨rules, read⟩ | ⟨other, plain, refused⟩
    · obtain ⟨same, rfl⟩ := Prod.mk.inj run
      cases same.symm.trans read
      exact continued rules read
    · cases (Prod.mk.inj run).1.symm.trans refused

theorem isViolation_of_compileItems {values : List Value}
    (failed : ((Session.compileItems values).run s).1 = .error fault) :
    fault.isViolation = false := by
  cases outcome : s.treeOf values with
  | ok tree =>
    obtain ⟨compiled, _, s', run, _⟩ := Session.ends_compileItems_ok outcome
    rw [run] at failed
    cases failed
  | error cause =>
    obtain ⟨s', run, _⟩ := Session.ends_compileItems_error outcome
    rw [run] at failed
    cases failed
    rfl

theorem isViolation_of_unauthorized {limit : Int} {tree : GrantTree}
    (failed : unauthorized limit tree data = .error fault) : fault.isViolation = false := by
  rw [unauthorized, map_eq_error_iff] at failed
  cases outcome : Diff.between limit (tree.project data) data with
  | ok changes =>
    rw [outcome] at failed
    cases failed
  | error cause =>
    rw [outcome] at failed
    cases failed
    cases cause <;> rfl

/-- **The check for fields**, where anything is declared. -/
theorem checks_checkFields (restricted : permitted ≠ .null) (tallied : s.Tallied n) :
    Checks fieldsCheck .fields n (checkFields permitted data) s := by
  refine checks_declared restricted tallied fun rules _ => .within ?_
  have inside : Session.Tallied n
      { s with spans := s.spans.enter "field_policy.authorize_fields" } := tallied.of_eq rfl rfl
  refine .after (Session.tallied_compileItems _) inside
    (fun fault => isViolation_of_compileItems) fun compiled s₁ _ tallied₁ => ?_
  rw [checks_get_bind]
  refine .after (maintains_lift _) tallied₁
    (fun fault => isViolation_of_unauthorized) fun fields s₂ _ tallied₂ => ?_
  split
  · exact checks_allowed tallied₂
  · exact checks_reject tallied₂ _ _

/-- Reading messages may fail, but not so that a request is rejected. -/
theorem isViolation_of_messagesOf {v : Validation} (failed : messagesOf v = .error fault) :
    fault.isViolation = false := by
  rcases bind_eq_error_iff.mp failed with unread | ⟨report, _, unlisted⟩
  · rcases Validation.fault_of_report unread with ⟨_, rfl⟩ | ⟨_, rfl⟩ | ⟨_, rfl⟩ <;> rfl
  · cases report with
    | messages all => cases unlisted
    | asGiven errors =>
      simp only [readUnlisted] at unlisted
      split at unlisted <;> cases unlisted <;> rfl

/-- What the rules that are declared find, or the fault that they end in. -/
def evaluation (s : Session) (permitted data : Value) : Except Fault (List Breach) := do
  match ← normalize s.settings.defaultRule permitted with
  | none => return []
  | some rules => Constraint.evaluate s.rules [] .all (orEmpty data) (.map rules)

/-- An evaluation ends in no violation that none of its rules ends in. -/
theorem evaluation_ne_violation {v : Violation} (avoids : s.rules.Avoids (.violation v)) :
    evaluation s permitted data ≠ .error (.violation v) := by
  by_cases restricted : permitted = .null
  · subst restricted
    rintro ⟨⟩
  · rcases normalize_cases restricted s.settings.defaultRule with
      ⟨rules, read⟩ | ⟨fault, plain, refused⟩
    · rw [evaluation, read]
      exact evaluate_ne_signal (.violation v) avoids
    · rw [evaluation, refused]
      rintro ⟨⟩
      cases plain

theorem evaluation_eq (declares : normalize s.settings.defaultRule permitted = .ok (some rules)) :
    evaluation s permitted data =
      Constraint.evaluate s.rules [] .all (orEmpty data) (.map rules) := by
  rw [evaluation, declares]
  rfl

/-- **The check for values**, where anything is declared and no rule itself ends in a
violation. -/
theorem checks_checkValues (restricted : permitted ≠ .null) (tallied : s.Tallied n)
    (own : ∀ v, evaluation s permitted data ≠ .error (.violation v)) :
    Checks valuesCheck .values n (checkValues Evaluator.engine permitted data) s := by
  refine checks_declared restricted tallied fun rules declares => .within ?_
  have inside : Session.Tallied n
      { s with spans := s.spans.enter "field_policy.authorize_field_values" } :=
    tallied.of_eq rfl rfl
  refine .after (Validation.maintains_execute (Session.tallied_engine _ _)) inside ?_ ?_
  · intro fault failed
    have stopped := Validation.error_of_execute Evaluator.ends_engine failed
    rcases Evaluator.fault_of_verdict stopped with raised | ⟨errors, rfl⟩
    · cases fault with
      | violation v => exact absurd ((evaluation_eq declares).trans raised) (own v)
      | _ => rfl
    · rfl
  · intro v s₁ _ tallied₁
    split
    · exact checks_allowed tallied₁
    · refine .after (maintains_lift _) tallied₁
        (fun fault => isViolation_of_messagesOf) fun messages s₂ _ tallied₂ => ?_
      exact checks_reject tallied₂ _ _

/-- A violation that a rule itself ends in stops the check for values, which counts nothing. -/
theorem run_checkValues_interrupted {v : Violation} (tallied : s.Tallied n)
    (raised : evaluation s permitted data = .error (.violation v)) :
    ∃ s', (checkValues Evaluator.engine permitted data).run s = (.error (.violation v), s') ∧
      s'.Tallied n := by
  have restricted : permitted ≠ .null := by
    rintro rfl
    cases raised
  obtain ⟨rules, declares⟩ : ∃ rules,
      normalize s.settings.defaultRule permitted = .ok (some rules) := by
    rcases normalize_cases restricted s.settings.defaultRule with read | ⟨fault, plain, refused⟩
    · exact read
    · rw [evaluation, refused] at raised
      cases raised
      cases plain
  rw [evaluation_eq declares] at raised
  let inside : Session :=
    { s with spans := s.spans.enter "field_policy.authorize_field_values" }
  let inquiry : Inquiry := { data := orEmpty data, rules := .map rules }
  have engine := @Evaluator.ends_engine inside .all inquiry
  have found : Constraint.evaluate inside.rules inquiry.wordings .all inquiry.data inquiry.rules =
      .error (.violation v) := raised
  rw [found] at engine
  have executed : Ends (Validation.execute Evaluator.engine .all inquiry) inside
      (.error (.violation v)) := Validation.ends_execute engine
  obtain ⟨s₁, run, _⟩ := executed
  have still : Session.Tallied n
      ((Validation.execute Evaluator.engine .all inquiry).run inside).2 :=
    Validation.maintains_execute (Session.tallied_engine _ _) inside (tallied.of_eq rfl rfl)
  rw [run] at still
  refine ⟨{ s₁ with spans := s₁.spans.leave true }, ?_, still.of_eq rfl rfl⟩
  rw [checkValues, run_bind, run_declared declares]
  simp only [run_within]
  rw [run_bind, run]

/-- What is added for a request once its checks have ended: a violation is a rejection, and
another fault is not counted. -/
def requestCounts : Except Fault Unit → Counter → Nat
  | .ok () => (Counter.authorizations requestCheck "allowed").raise
  | .error (.violation _) => (Counter.authorizations requestCheck "rejected").raise
  | .error _ => 0

theorem requestCounts_of_check?_ne {outcome : Except Fault Unit} {k : Counter}
    (other : k.check? ≠ some requestCheck) : requestCounts outcome k = 0 := by
  cases outcome with
  | ok => exact Counter.raise_of_check?_ne (Ne.symm other)
  | error fault =>
    cases fault with
    | violation v => exact Counter.raise_of_check?_ne (Ne.symm other)
    | _ => rfl

/-- How a request is counted depends on what its checks do. -/
theorem run_counted_congr {action action' : Action Unit} (same : action.run s = action'.run s) :
    (counted action).run s = (counted action').run s := by
  rw [counted, counted, run_bind, run_bind, run_tryCatch, run_tryCatch, same]

theorem run_counted {action : Action Unit} {outcome : Except Fault Unit}
    (run : action.run s = (outcome, s')) (tallied : s'.Tallied n) :
    ∃ s'', (counted action).run s = (outcome, s'') ∧ s''.Tallied (n + requestCounts outcome) := by
  rw [counted, run_bind, run_tryCatch, run]
  cases outcome with
  | ok => exact Session.run_recordAuthorization_no_fields tallied requestCheck "allowed"
  | error fault =>
    cases fault with
    | violation v =>
      obtain ⟨s₁, recorded, counts⟩ :=
        Session.run_recordAuthorization_no_fields tallied requestCheck "rejected"
      refine ⟨s₁, ?_, counts⟩
      simp only [run_bind, recorded]
      rfl
    | _ =>
      refine ⟨s', rfl, ?_⟩
      change s'.Tallied (n + 0)
      rwa [add_zero]

end Authorization
end Permit
