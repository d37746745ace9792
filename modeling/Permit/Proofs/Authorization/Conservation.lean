import Permit.Proofs.Authorization.Counting

/-!
What the counters say of a run. A request fares in one of seven ways (`Fares`), each of which
adds its own counts (`Course.counts`); a run of requests adds those of its courses
(`exists_run`). From this the counters keep their balance over every run
(`counters_balanced`): each rejected request is a rejection of fields or of values, or one that a
rule has interrupted; each allowed one has passed the check for values or had nothing declared;
and what passes the check for fields without a count for its values has been stopped there, or
interrupted. `Conserved` says so of runs without interruptions.
-/
namespace Permit.Authorization

open Permit.Action Constraint

variable {s s' : Session} {permitted data : Value} {n : Counter → Nat}

/-! ### One request -/

inductive Course where
  | unrestricted
  | failed (fault : Fault)
  | fields (messages : List FieldMessage)
  /-- The check for values fails. -/
  | stopped (fault : Fault)
  /-- A rule itself ends in a violation. -/
  | interrupted (v : Violation)
  | values (messages : List FieldMessage)
  | passed

namespace Course

/-- What the caller is told of a request. -/
def outcome : Course → Except Fault Unit
  | unrestricted => .ok ()
  | failed fault => .error fault
  | fields messages => .error (.violation { kind := .fields, messages })
  | stopped fault => .error fault
  | interrupted v => .error (.violation v)
  | values messages => .error (.violation { kind := .values, messages })
  | passed => .ok ()

/-- What the checks of a request add to the counters. -/
def checkCounts : Course → Counter → Nat
  | unrestricted => 0
  | failed _ => 0
  | fields messages => (Counter.authorizations fieldsCheck "rejected").raise +
      (Counter.rejectedFields fieldsCheck).raise messages.length
  | stopped _ => (Counter.authorizations fieldsCheck "allowed").raise
  | interrupted _ => (Counter.authorizations fieldsCheck "allowed").raise
  | values messages => (Counter.authorizations fieldsCheck "allowed").raise +
      (Counter.authorizations valuesCheck "rejected").raise +
      (Counter.rejectedFields valuesCheck).raise messages.length
  | passed => (Counter.authorizations fieldsCheck "allowed").raise +
      (Counter.authorizations valuesCheck "allowed").raise

/-- What is added for a request once its checks have ended. -/
def endCounts : Course → Counter → Nat
  | unrestricted => (Counter.authorizations requestCheck "allowed").raise
  | failed _ => 0
  | fields _ => (Counter.authorizations requestCheck "rejected").raise
  | stopped _ => 0
  | interrupted _ => (Counter.authorizations requestCheck "rejected").raise
  | values _ => (Counter.authorizations requestCheck "rejected").raise
  | passed => (Counter.authorizations requestCheck "allowed").raise

def counts (c : Course) : Counter → Nat := c.checkCounts + c.endCounts

def isUnrestricted : Course → Bool
  | unrestricted => true
  | _ => false

def isStopped : Course → Bool
  | stopped _ => true
  | _ => false

/-- Whether a rule has rejected a request in place of a check. -/
def isInterrupted : Course → Bool
  | interrupted _ => true
  | _ => false

def fieldMessages : Course → Nat
  | fields messages => messages.length
  | _ => 0

def valueMessages : Course → Nat
  | values messages => messages.length
  | _ => 0

end Course

/-- How a request fares in a session: what its checks end in, one after the other. -/
inductive Fares (s : Session) (permitted data : Value) : Course → Prop where
  | unrestricted : permitted = .null → Fares s permitted data .unrestricted
  | failed {fault : Fault} {s₁ : Session} : permitted ≠ .null → fault.isViolation = false →
    (checkFields permitted data).run s = (.error fault, s₁) →
    Fares s permitted data (.failed fault)
  | fields {messages : List FieldMessage} {s₁ : Session} : permitted ≠ .null →
    (checkFields permitted data).run s = (.error (.violation { kind := .fields, messages }), s₁) →
    Fares s permitted data (.fields messages)
  | stopped {fault : Fault} {s₁ s₂ : Session} : permitted ≠ .null → fault.isViolation = false →
    (checkFields permitted data).run s = (.ok (), s₁) →
    (checkValues Evaluator.engine permitted data).run s₁ = (.error fault, s₂) →
    Fares s permitted data (.stopped fault)
  | interrupted {v : Violation} {s₁ : Session} : permitted ≠ .null →
    (checkFields permitted data).run s = (.ok (), s₁) →
    evaluation s₁ permitted data = .error (.violation v) →
    Fares s permitted data (.interrupted v)
  | values {messages : List FieldMessage} {s₁ s₂ : Session} : permitted ≠ .null →
    (checkFields permitted data).run s = (.ok (), s₁) →
    (∀ v, evaluation s₁ permitted data ≠ .error (.violation v)) →
    (checkValues Evaluator.engine permitted data).run s₁ =
      (.error (.violation { kind := .values, messages }), s₂) →
    Fares s permitted data (.values messages)
  | passed {s₁ s₂ : Session} : permitted ≠ .null →
    (checkFields permitted data).run s = (.ok (), s₁) →
    (checkValues Evaluator.engine permitted data).run s₁ = (.ok (), s₂) →
    Fares s permitted data .passed

/-- A request that fails is not counted, whatever it fails with. -/
theorem Fares.requestCounts_eq {course : Course} (fares : Fares s permitted data course) :
    requestCounts course.outcome = course.endCounts := by
  cases fares with
  | @failed fault _ _ plain | @stopped fault _ _ _ plain =>
    cases fault with
    | violation v => cases plain
    | _ => rfl
  | _ => rfl

theorem run_checks {evaluator : Evaluator} {outcome : Except Fault Unit} {s₁ : Session}
    (first : (checkFields permitted data).run s = (.ok (), s₁))
    (second : (checkValues evaluator permitted data).run s₁ = (outcome, s')) :
    (do checkFields permitted data; checkValues evaluator permitted data : Action Unit).run s =
      (outcome, s') := by
  rw [run_bind, first]
  exact second

/-- A request that fails its first check does not come to the second one. -/
theorem run_checks_error {evaluator : Evaluator} {fault : Fault}
    (first : (checkFields permitted data).run s = (.error fault, s')) :
    (do checkFields permitted data; checkValues evaluator permitted data : Action Unit).run s =
      (.error fault, s') := by
  rw [run_bind, first]

/-- **One request** takes a course, ends as it says and adds what it says. -/
theorem exists_course (tallied : s.Tallied n) (permitted data : Value) :
    ∃ course s', Fares s permitted data course ∧
      (Authorization.check Evaluator.engine permitted data).run s = (course.outcome, s') ∧
      s'.Tallied (n + course.counts) := by
  -- the request is counted once its checks have ended and added their counts
  have counted {course : Course} {s₁ : Session} (fares : Fares s permitted data course)
      (run : (do checkFields permitted data; checkValues Evaluator.engine permitted data :
        Action Unit).run s = (course.outcome, s₁))
      (counts : s₁.Tallied (n + course.checkCounts)) :
      ∃ course s', Fares s permitted data course ∧
        (Authorization.check Evaluator.engine permitted data).run s = (course.outcome, s') ∧
        s'.Tallied (n + course.counts) := by
    obtain ⟨s', ended, total⟩ := run_counted run counts
    refine ⟨course, s', fares, ended, ?_⟩
    rwa [Course.counts, ← add_assoc, ← fares.requestCounts_eq]
  by_cases restricted : permitted = .null
  · subst restricted
    exact counted (.unrestricted rfl) rfl tallied
  · have first : Checks fieldsCheck .fields n (checkFields permitted data) s :=
      checks_checkFields restricted tallied
    rw [Checks] at first
    cases fields : (checkFields permitted data).run s with
    | mk outcome s₁ =>
      rw [fields] at first
      cases first with
      | rejected messages counts =>
        refine counted (.fields restricted fields) (run_checks_error fields) ?_
        rwa [Course.checkCounts, ← add_assoc]
      | failed plain still =>
        exact counted (.failed restricted plain fields) (run_checks_error fields) still
      | passed counts =>
        by_cases own : ∃ v, evaluation s₁ permitted data = .error (.violation v)
        · obtain ⟨v, raised⟩ := own
          obtain ⟨s₂, values, still⟩ := run_checkValues_interrupted counts raised
          exact counted (.interrupted restricted fields raised) (run_checks fields values) still
        · have own : ∀ v, evaluation s₁ permitted data ≠ .error (.violation v) :=
            fun v raised => own ⟨v, raised⟩
          have second := @checks_checkValues s₁ permitted data _ restricted counts own
          rw [Checks] at second
          cases values : (checkValues Evaluator.engine permitted data).run s₁ with
          | mk outcome s₂ =>
            rw [values] at second
            cases second with
            | passed counts =>
              refine counted (.passed restricted fields values) (run_checks fields values) ?_
              rwa [Course.checkCounts, ← add_assoc]
            | rejected messages counts =>
              refine counted (.values restricted fields own values) (run_checks fields values) ?_
              rwa [Course.checkCounts, ← add_assoc, ← add_assoc]
            | failed plain still =>
              exact counted (.stopped restricted plain fields values)
                (run_checks fields values) still

/-! ### Runs -/

structure Request where
  rules : RuleSet
  permitted : Value
  data : Value

/-- Whether nothing is declared for a request. -/
def Request.unrestricted (r : Request) : Bool := r.permitted matches .null

inductive Run : Session → List Request → List Course → Session → Prop where
  | start {s : Session} : Run s [] [] s
  | next {s s₁ s' : Session} {r : Request} {rest : List Request} {course : Course}
      {courses : List Course} : Fares { s with rules := r.rules } r.permitted r.data course →
    (Authorization.check Evaluator.engine r.permitted r.data).run { s with rules := r.rules } =
      (course.outcome, s₁) →
    Run s₁ rest courses s' → Run s (r :: rest) (course :: courses) s'

def total (courses : List Course) : Counter → Nat := fun k => (courses.map (·.counts k)).sum

theorem total_cons (course : Course) (courses : List Course) :
    total (course :: courses) = course.counts + total courses := by
  funext k
  simp [total]

def after (s : Session) (requests : List Request) : Session :=
  requests.foldl (fun s r => ((Authorization.check Evaluator.engine r.permitted r.data).run
    { s with rules := r.rules }).2) s

/-- **A run** adds what its requests add. -/
theorem exists_run (tallied : s.Tallied n) (requests : List Request) :
    ∃ courses, Run s requests courses (after s requests) ∧
      (after s requests).Tallied (n + total courses) := by
  induction requests generalizing s n with
  | nil => exact ⟨[], .start, tallied⟩
  | cons r rest ih =>
    have before : Session.Tallied n { s with rules := r.rules } := tallied.of_eq rfl rfl
    obtain ⟨course, s₁, fares, run, counts⟩ := exists_course before r.permitted r.data
    have goesOn : after s (r :: rest) = after s₁ rest := by
      rw [after, List.foldl_cons, run]
      rfl
    obtain ⟨courses, others, totals⟩ := ih counts
    rw [goesOn]
    refine ⟨course :: courses, .next fares run others, ?_⟩
    rwa [total_cons, ← add_assoc]

/-- The balance of the counters, whatever courses the requests of a run have taken. -/
structure Balanced (count : Counter → Nat) (unrestricted : Nat) (courses : List Course) :
    Prop where
  /-- A rejection is one of fields or of values, or a rule has told of it. -/
  rejected : count (.authorizations requestCheck "rejected") =
    count (.authorizations fieldsCheck "rejected") +
      count (.authorizations valuesCheck "rejected") + courses.countP Course.isInterrupted
  /-- What is allowed has passed the check for values, or nothing was declared. -/
  allowed : count (.authorizations requestCheck "allowed") =
    count (.authorizations valuesCheck "allowed") + unrestricted
  /-- What passes the check for fields is counted for its values too, but where it stops. -/
  reached : count (.authorizations fieldsCheck "allowed") =
    count (.authorizations valuesCheck "allowed") +
      count (.authorizations valuesCheck "rejected") +
      (courses.countP Course.isStopped + courses.countP Course.isInterrupted)
  fields : count (.rejectedFields fieldsCheck) = (courses.map Course.fieldMessages).sum
  values : count (.rejectedFields valuesCheck) = (courses.map Course.valueMessages).sum

/-- The balance of a run in which no rule itself ends in a violation. -/
structure Conserved (count : Counter → Nat) (unrestricted : Nat) (courses : List Course) :
    Prop where
  rejected : count (.authorizations requestCheck "rejected") =
    count (.authorizations fieldsCheck "rejected") + count (.authorizations valuesCheck "rejected")
  allowed : count (.authorizations requestCheck "allowed") =
    count (.authorizations valuesCheck "allowed") + unrestricted
  reached : count (.authorizations fieldsCheck "allowed") =
    count (.authorizations valuesCheck "allowed") +
      count (.authorizations valuesCheck "rejected") + courses.countP Course.isStopped
  fields : count (.rejectedFields fieldsCheck) = (courses.map Course.fieldMessages).sum
  values : count (.rejectedFields valuesCheck) = (courses.map Course.valueMessages).sum

variable {count count' : Counter → Nat} {unrestricted unrestricted' : Nat}
  {courses courses' : List Course} {requests : List Request}

theorem Balanced.add (first : Balanced count unrestricted courses)
    (second : Balanced count' unrestricted' courses') :
    Balanced (count + count') (unrestricted + unrestricted') (courses ++ courses') := by
  obtain ⟨rejected, allowed, reached, fields, values⟩ := first
  obtain ⟨rejected', allowed', reached', fields', values'⟩ := second
  constructor
  all_goals simp only [Pi.add_apply, List.countP_append, List.map_append, List.sum_append]
  all_goals omega

theorem Balanced.congr (balanced : Balanced count unrestricted courses)
    (same : ∀ k : Counter, k.check?.isSome = true → count' k = count k) :
    Balanced count' unrestricted courses := by
  have authorized (check outcome : String) :
      count' (.authorizations check outcome) = count (.authorizations check outcome) := same _ rfl
  have reported (check : String) :
      count' (.rejectedFields check) = count (.rejectedFields check) := same _ rfl
  obtain ⟨rejected, allowed, reached, fields, values⟩ := balanced
  constructor
  all_goals simpa only [authorized, reported]

theorem Balanced.conserved (balanced : Balanced count unrestricted courses)
    (none : courses.countP Course.isInterrupted = 0) : Conserved count unrestricted courses where
  rejected := by simpa only [none, Nat.add_zero] using balanced.rejected
  allowed := balanced.allowed
  reached := by simpa only [none, Nat.add_zero] using balanced.reached
  fields := balanced.fields
  values := balanced.values

theorem balanced_course (course : Course) :
    Balanced course.counts (if course.isUnrestricted then 1 else 0) [course] := by
  constructor
  all_goals
    cases course <;>
      simp [Course.counts, Course.checkCounts, Course.endCounts, Counter.raise, fieldsCheck,
        valuesCheck, requestCheck, Course.isUnrestricted, Course.isInterrupted,
        Course.isStopped, Course.fieldMessages, Course.valueMessages]

theorem Fares.isUnrestricted_eq {r : Request} {course : Course}
    (fares : Fares s r.permitted r.data course) : r.unrestricted = course.isUnrestricted := by
  rw [Request.unrestricted]
  cases fares with
  | unrestricted null => rw [null, Course.isUnrestricted]
  | failed restricted | fields restricted | stopped restricted | interrupted restricted
  | values restricted | passed restricted =>
    cases given : r.permitted with
    | null => exact absurd given restricted
    | _ => rfl

theorem Run.balanced (run : Run s requests courses s') :
    Balanced (total courses) (requests.countP Request.unrestricted) courses := by
  induction run with
  | start => constructor <;> rfl
  | @next _ _ _ _ _ course _ fares _ _ ih =>
    have both := (balanced_course course).add ih
    rw [total_cons, List.countP_cons, fares.isUnrestricted_eq, Nat.add_comm]
    exact both

/-- What passes the check for fields leaves settings and rules as they were. -/
theorem keeps_of_checkFields {s₁ : Session}
    (passes : (checkFields permitted data).run s = (.ok (), s₁)) : Keeps s s₁ := by
  cases declares : normalize s.settings.defaultRule permitted with
  | error fault =>
    rw [checkFields, run_bind, run_declared_eq, declares] at passes
    cases passes
  | ok found =>
    cases found with
    | none =>
      rw [checkFields, run_bind, run_declared_eq, declares] at passes
      cases passes
      exact .refl s
    | some rules =>
      obtain ⟨tree, compiles⟩ := treeOf_of_checkFields declares passes
      exact ((ends_checkFields_of_compiles declares compiles).outcome_eq passes).2

theorem Fares.isInterrupted_eq {course : Course} (fares : Fares s permitted data course)
    (avoids : ∀ v, s.rules.Avoids (.violation v)) : course.isInterrupted = false := by
  cases fares with
  | @interrupted v _ _ passes raised =>
    rw [← (keeps_of_checkFields passes).rules] at avoids
    exact absurd raised (evaluation_ne_violation (avoids v))
  | _ => rfl

theorem Run.countP_isInterrupted (run : Run s requests courses s')
    (avoids : ∀ r ∈ requests, ∀ v, r.rules.Avoids (.violation v)) :
    courses.countP Course.isInterrupted = 0 := by
  induction run with
  | start => rfl
  | next fares _ _ ih =>
    obtain ⟨own, others⟩ := List.forall_mem_cons.mp avoids
    rw [List.countP_cons, fares.isInterrupted_eq own, ih others]
    rfl

/-- A request that fails the check for fields is not evaluated at all: it ends in the same way
with every evaluator, and nothing is counted of its values. -/
theorem check_of_checkFields_error {fault : Fault} {s₁ : Session}
    (enabled : s.settings.metricsEnabled = true)
    (failed : (checkFields permitted data).run s = (.error fault, s₁)) :
    ∃ s₂, (∀ evaluator, (Authorization.check evaluator permitted data).run s = (.error fault, s₂)) ∧
      ∀ k : Counter, k.check? = some valuesCheck → s₂.metrics.count k = s.metrics.count k := by
  have restricted : permitted ≠ .null := by
    rintro rfl
    cases failed
  have tallied : s.Tallied s.metrics.count := ⟨enabled, fun _ _ => rfl⟩
  have first : Checks fieldsCheck .fields _ (checkFields permitted data) s :=
    checks_checkFields restricted tallied
  rw [Checks, failed] at first
  -- what the check for fields has counted is not about values
  have still : ∃ n : Counter → Nat, s₁.Tallied n ∧
      ∀ k : Counter, k.check? = some valuesCheck → n k = s.metrics.count k := by
    cases first with
    | failed _ still => exact ⟨_, still, fun _ _ => rfl⟩
    | rejected messages counts =>
      refine ⟨_, counts, fun k about => ?_⟩
      have other {c : Counter} {amount : Nat} (own : c.check? = some fieldsCheck) :
          c.raise amount k = 0 := by
        refine Counter.raise_of_check?_ne ?_
        rw [own, about]
        decide
      rw [Pi.add_apply, Pi.add_apply, other rfl, other rfl]
      rfl
  obtain ⟨n, counts, same⟩ := still
  obtain ⟨s₂, run, total⟩ :
      ∃ s₂, (Authorization.check Evaluator.engine permitted data).run s = (.error fault, s₂) ∧
        s₂.Tallied (n + requestCounts (.error fault)) :=
    run_counted (run_checks_error failed) counts
  refine ⟨s₂, fun evaluator => ?_, fun k about => ?_⟩
  · rw [← run]
    refine run_counted_congr ?_
    rw [run_checks_error failed, run_checks_error failed]
  · have last : requestCounts (.error fault) k = 0 := by
      refine requestCounts_of_check?_ne ?_
      rw [about]
      decide
    rw [total.counts k (by rw [about]; rfl), Pi.add_apply, last, same k about]
    rfl

/-- **The counters balance.** From counters at zero, with metrics switched on, every run of
requests under whatever rules leaves the counters in balance: each request takes a course,
and the courses account for what is counted. If no rule itself ends in a violation, none is
interrupted, and each rejection is one of fields or of values. A request that fails the check
for fields meets no evaluator, and nothing is counted of its values. -/
theorem counters_balanced (tallied : s.Tallied 0) (requests : List Request) :
    (∃ courses, Run s requests courses (after s requests) ∧
      Balanced (after s requests).metrics.count (requests.countP Request.unrestricted) courses ∧
      ((∀ r ∈ requests, ∀ v, r.rules.Avoids (.violation v)) →
        courses.countP Course.isInterrupted = 0 ∧
          Conserved (after s requests).metrics.count (requests.countP Request.unrestricted)
            courses)) ∧
    ∀ (s : Session) (permitted data : Value) (fault : Fault) (s₁ : Session),
      s.settings.metricsEnabled = true →
      (checkFields permitted data).run s = (.error fault, s₁) →
      ∃ s₂, (∀ evaluator,
          (Authorization.check evaluator permitted data).run s = (.error fault, s₂)) ∧
        ∀ k : Counter, k.check? = some valuesCheck → s₂.metrics.count k = s.metrics.count k := by
  refine ⟨?_, fun s permitted data fault s₁ => check_of_checkFields_error⟩
  obtain ⟨courses, run, counts⟩ := exists_run tallied requests
  rw [zero_add] at counts
  have balanced := run.balanced.congr counts.counts
  refine ⟨courses, run, balanced, fun avoids => ?_⟩
  have none := run.countP_isInterrupted avoids
  exact ⟨none, balanced.conserved none⟩

/-- Requests that fare differently, one of them under a rule that is not known. -/
theorem counters_balanced_mixed :
    let request (permitted data : Value) : Request := ⟨RuleSet.builtIn, permitted, data⟩
    let requests : List Request :=
      [request .null .null,
        request (.int 5) .null,
        request (.texts ["a"]) (.record [("b", .int 1), ("c", .int 2)]),
        request (.record [("a", .text "nothing")]) (.record [("a", .int 1)]),
        request (.record [("a", .text "integer|required")]) (.record [("a", .text "x")]),
        request (.record [("a", .text "integer")]) (.record [("a", .int 1)])]
    let count := (after {} requests).metrics.count
    ∃ courses, Run {} requests courses (after {} requests) ∧
      courses.countP Course.isStopped = 1 ∧
      count (.authorizations requestCheck "rejected") = 2 ∧
      count (.authorizations requestCheck "allowed") = 2 ∧
      (courses.map Course.fieldMessages).sum = 2 ∧
      (courses.map Course.valueMessages).sum = 1 := by
  intro request requests count
  have zero : ({} : Session).Tallied 0 := ⟨rfl, fun _ _ => rfl⟩
  obtain ⟨⟨courses, run, -, uninterrupted⟩, -⟩ := counters_balanced zero requests
  have known : ∀ r ∈ requests, ∀ v, r.rules.Avoids (.violation v) := by
    intro r inside v
    have builtIn : r.rules = RuleSet.builtIn := by
      simp only [requests, request, List.mem_cons, List.not_mem_nil, or_false] at inside
      rcases inside with rfl | rfl | rfl | rfl | rfl | rfl <;> rfl
    rw [builtIn]
    exact RuleSet.avoids_builtIn (.violation v)
  have conserved := (uninterrupted known).2
  have rejected : count (.authorizations requestCheck "rejected") = 2 := by decide +kernel
  have allowed : count (.authorizations requestCheck "allowed") = 2 := by decide +kernel
  have fields : count (.rejectedFields fieldsCheck) = 2 := by decide +kernel
  have values : count (.rejectedFields valuesCheck) = 1 := by decide +kernel
  have reached : count (.authorizations fieldsCheck "allowed") = 3 := by decide +kernel
  have passed : count (.authorizations valuesCheck "allowed") = 1 := by decide +kernel
  have refused : count (.authorizations valuesCheck "rejected") = 1 := by decide +kernel
  have total := conserved.reached
  change count _ = count _ + count _ + _ at total
  rw [reached, passed, refused] at total
  exact ⟨courses, run, by omega, rejected, allowed, conserved.fields.symm.trans fields,
    conserved.values.symm.trans values⟩

/-- A rule that itself ends in a violation: the request is rejected, but by neither of the checks.
And metrics that are switched off on the way: what a check rejects then is not counted. -/
theorem counters_unbalanced :
    let interrupt : Constraint.RuleFunction := fun _ _ =>
      .error (.violation { kind := .values, messages := [⟨"a", "Not now.", none⟩] })
    let request : Request :=
      ⟨[("interrupt", interrupt)], .record [("a", .text "interrupt")], .record [("a", .int 1)]⟩
    let bare : Request := ⟨RuleSet.builtIn, .texts ["a"], .record [("b", .int 1)]⟩
    let violates (r : Request) (s : Session) : Bool :=
      ((Authorization.check Evaluator.engine r.permitted r.data).run { s with rules := r.rules }).1
        matches .error (.violation _)
    let count := (after {} [request]).metrics.count
    let first := after {} [bare]
    let off := { first with settings := { first.settings with metricsEnabled := false } }
    (violates request {} = true ∧
      count (.authorizations requestCheck "rejected") = 1 ∧
      count (.authorizations fieldsCheck "rejected") = 0 ∧
      count (.authorizations valuesCheck "rejected") = 0 ∧
      count (.authorizations fieldsCheck "allowed") = 1 ∧
      count (.authorizations valuesCheck "allowed") = 0 ∧
      count (.rejectedFields valuesCheck) = 0) ∧
    violates bare {} = true ∧ violates bare off = true ∧
      (after off [bare]).metrics.count (.rejectedFields fieldsCheck) = 1 := by
  decide +kernel

end Permit.Authorization
