import Permit.Proofs.Authorization.Nothing

/-!
How a policy is enforced. Each hook is asked once, in the session that the one before has left,
and what it answers decides what is asked next:

* `authorizeRequest_refused`: an answer that does not hold ends the request, and nothing else
  is asked;
* `run_authorizeRequest`: else the request is checked under what the second hook permits;
* `call_async`: whether a hook has to be waited for makes no difference.

Main statement: `fails_closed`.
-/
namespace Permit.Enforcement

open Permit.Action Authorization

variable {s s₁ s₂ : Session} {evaluator : Evaluator} {policy : Policy} {data content : Value}
  {answer allowed : Option Value} {v : Value}

/-- From a session, a hook answers; one that is not there to be called has no answer. -/
def Answers (hook : Hook) (s : Session) (answer : Option Value) (s' : Session) : Prop :=
  (call hook).run s = (.ok answer, s')

def Fails (hook : Hook) (s : Session) (fault : Fault) : Prop :=
  ((call hook).run s).1 = .error fault

/-- A request may proceed: there is no answer to whether it may, or one that holds. -/
def Proceeds (answer : Option Value) : Prop := ∀ v, answer = some v → v.isTrue = true

theorem any_of_proceeds (proceeds : Proceeds allowed) : allowed.any (!·.isTrue) = false := by
  cases allowed with
  | none => rfl
  | some v => simp [proceeds v rfl]

/-- Whether an answer has to be waited for makes no difference. -/
theorem call_async (answer : Action Value) : call (.async answer) = call (.sync answer) := by
  simp [call, Hook.async, Hook.sync, await]

theorem permittedBy_of_not_isTrue (refuses : v.isTrue = false) :
    permittedBy (some v) = .list [] := by
  unfold permittedBy
  split
  next absent => cases absent
  next lifted =>
    cases lifted
    cases refuses
  next given =>
    cases given
    rw [refuses]
    rfl

theorem permittedBy_of_isTrue (holds : v.isTrue = true) (restricts : v ≠ .bool true) :
    permittedBy (some v) = v := by
  unfold permittedBy
  split
  next absent => cases absent
  next lifted => exact absurd (Option.some.inj lifted) restricts
  next given =>
    cases given
    rw [holds]
    rfl

/-! ### Requests -/

/-- The session in which the hooks of a request are asked. -/
def entered (s : Session) : Session :=
  { s with spans := s.spans.enter "field_policy.authorize_request" }

/-- **Refused.** If the first hook answers and its answer does not hold, the request ends as
unauthorized, whatever the other hooks and the evaluator are. -/
theorem authorizeRequest_refused (answers : Answers policy.authorize (entered s) (some v) s₁)
    (refuses : v.isTrue = false) :
    ∃ s₂, ∀ evaluator permittedQuery data,
      (authorizeRequest evaluator { policy with permittedQuery } data).run s =
        (.error (.violation { kind := .unauthorized, message := refusal }), s₂) := by
  let entry : Entry := ⟨20, enforcerLog, s!"Policy {policy.name} rejected the request", none⟩
  let told : Session := { s₁ with journal := s₁.journal.note entry }
  refine ⟨{ told with spans := told.spans.leave true }, fun evaluator permittedQuery data => ?_⟩
  rw [Answers, entered] at answers
  simp only [authorizeRequest, run_within, run_bind, answers, Option.any_some, refuses,
    Bool.not_false, if_true]
  rfl

/-- **Checked.** If the request may proceed, it is checked under what the second hook permits,
in the session that the hooks have left. -/
theorem run_authorizeRequest (answers : Answers policy.authorize (entered s) allowed s₁)
    (proceeds : Proceeds allowed) (permits : Answers policy.permittedQuery s₁ answer s₂) :
    (authorizeRequest evaluator policy data).run s =
      let ended := (Authorization.check evaluator (permittedBy answer) data).run s₂
      (ended.1, { ended.2 with spans := ended.2.spans.leave (ended.1 matches .error _) }) := by
  have goesOn := any_of_proceeds proceeds
  rw [Answers, entered] at answers
  rw [Answers] at permits
  simp only [authorizeRequest, run_within, run_bind, answers, goesOn, Bool.false_eq_true, if_false,
    permits]
  generalize (Authorization.check evaluator (permittedBy answer) data).run s₂ = ended
  obtain ⟨outcome, s'⟩ := ended
  cases outcome <;> rfl

/-- A hook that fails ends the request with its fault. -/
theorem authorizeRequest_of_fails {fault : Fault}
    (fails : Fails policy.authorize (entered s) fault ∨
      ∃ allowed s₁, Answers policy.authorize (entered s) allowed s₁ ∧ Proceeds allowed ∧
        Fails policy.permittedQuery s₁ fault) :
    ((authorizeRequest evaluator policy data).run s).1 = .error fault := by
  rcases fails with failed | ⟨allowed, s₁, answers, proceeds, failed⟩
  · rw [Fails, entered] at failed
    rw [authorizeRequest, run_within, run_bind]
    generalize (call policy.authorize).run _ = asked at failed ⊢
    obtain ⟨outcome, s'⟩ := asked
    cases failed
    rfl
  · have goesOn := any_of_proceeds proceeds
    rw [Answers, entered] at answers
    rw [Fails] at failed
    simp only [authorizeRequest, run_within, run_bind, answers, goesOn, Bool.false_eq_true,
      if_false]
    generalize (call policy.permittedQuery).run s₁ = asked at failed ⊢
    obtain ⟨outcome, s'⟩ := asked
    cases failed
    rfl

/-- What the second hook answers decides how a request that may proceed ends: an answer that
does not hold permits nothing, none or `true` everything, and any other one is declared. -/
theorem authorizeRequest_cases (answers : Answers policy.authorize (entered s) allowed s₁)
    (proceeds : Proceeds allowed) (permits : Answers policy.permittedQuery s₁ answer s₂) :
    (∀ v, answer = some v → v.isTrue = false →
      ((∃ s', (authorizeRequest Evaluator.engine policy data).run s = (.ok (), s')) ↔
        data.isHollow = true)) ∧
    (answer = none ∨ answer = some (.bool true) →
      ∀ evaluator, ∃ s', (authorizeRequest evaluator policy data).run s = (.ok (), s')) ∧
    ∀ v, answer = some v → v.isTrue = true → v ≠ .bool true →
      ∀ evaluator, ((authorizeRequest evaluator policy data).run s).1 =
        ((Authorization.check evaluator v data).run s₂).1 := by
  have checked (evaluator : Evaluator) :
      (authorizeRequest evaluator policy data).run s = _ :=
    run_authorizeRequest answers proceeds permits
  refine ⟨?_, ?_, ?_⟩
  · rintro v rfl refuses
    rw [checked, permittedBy_of_not_isTrue refuses, ← check_nothing_iff (s := s₂)]
    constructor
    · rintro ⟨s', passes⟩
      exact ⟨_, Prod.ext (Prod.mk.inj passes).1 rfl⟩
    · rintro ⟨s', passes⟩
      rw [passes]
      exact ⟨_, rfl⟩
  · intro lifted evaluator
    have unrestricted : permittedBy answer = .null := by
      rcases lifted with rfl | rfl <;> rfl
    obtain ⟨s', passes, _⟩ : Ends (Authorization.check evaluator .null data) s₂ (.ok ()) :=
      ends_counted ⟨s₂, rfl, .refl s₂⟩
    rw [checked, unrestricted, passes]
    exact ⟨_, rfl⟩
  · rintro v rfl holds restricts evaluator
    rw [checked, permittedBy_of_isTrue holds restricts]

/-! ### Responses -/

/-- Where the third hook gives an answer that does not hold, no leaf of a response is left but
beside the items of an envelope. -/
theorem shapeResponse_nothing (answers : Answers policy.permittedFields s (some v) s₁)
    (refuses : v.isTrue = false) :
    ∃ result s', (shapeResponse policy content).run s = (.ok result, s') ∧
      ∀ place x, result.Holds place x → x.isContainer = false →
        (content = .null ∧ place = [] ∧ x = .null) ∨
          Response.BesideItems content.toPlain place x := by
  obtain ⟨result, shaped, s', run, _⟩ := ends_projectResponse_nothing content s₁
  refine ⟨result, s', ?_, ?_⟩
  · rw [Answers] at answers
    rw [shapeResponse, run_bind, answers]
    simp only [permittedBy_of_not_isTrue refuses, run]
  · intro place x held leaf
    rcases shaped with ⟨null, rfl⟩ | ⟨tree, bare, rfl⟩
    · cases held with
      | here => exact .inl ⟨null, rfl, rfl⟩
      | index sequence => cases sequence
    · exact .inr (Response.besideItems_of_shape bare held leaf)

/-- **Enforcement fails closed.** An answer to the first hook that does not hold ends the
request as unauthorized, and neither the second hook nor the evaluator has a part in it. Else
the second hook decides: what passes under an answer that does not hold is just what holds
nothing, and without an answer or under `true` everything passes; under any other answer the
request ends as it does when it is checked by itself. An answer to the third hook that does not
hold leaves no leaf of a response but beside the items of an envelope. A hook that fails ends
the request with its fault, and it makes no difference whether a hook has to be waited for. -/
theorem fails_closed (policy : Policy) (data content : Value) (s : Session) :
    (∀ v s₁, Answers policy.authorize (entered s) (some v) s₁ → v.isTrue = false →
      ∃ s₂, ∀ evaluator permittedQuery data,
        (authorizeRequest evaluator { policy with permittedQuery } data).run s =
          (.error (.violation { kind := .unauthorized, message := refusal }), s₂)) ∧
    (∀ allowed s₁ answer s₂, Answers policy.authorize (entered s) allowed s₁ →
      Proceeds allowed → Answers policy.permittedQuery s₁ answer s₂ →
      (∀ v, answer = some v → v.isTrue = false →
        ((∃ s', (authorizeRequest Evaluator.engine policy data).run s = (.ok (), s')) ↔
          data.isHollow = true)) ∧
      (answer = none ∨ answer = some (.bool true) →
        ∀ evaluator, ∃ s', (authorizeRequest evaluator policy data).run s = (.ok (), s')) ∧
      ∀ v, answer = some v → v.isTrue = true → v ≠ .bool true →
        ∀ evaluator, ((authorizeRequest evaluator policy data).run s).1 =
          ((Authorization.check evaluator v data).run s₂).1) ∧
    (∀ v s₁, Answers policy.permittedFields s (some v) s₁ → v.isTrue = false →
      ∃ result s', (shapeResponse policy content).run s = (.ok result, s') ∧
        ∀ place x, result.Holds place x → x.isContainer = false →
          (content = .null ∧ place = [] ∧ x = .null) ∨
            Response.BesideItems content.toPlain place x) ∧
    (∀ fault, (Fails policy.authorize (entered s) fault ∨
        ∃ allowed s₁, Answers policy.authorize (entered s) allowed s₁ ∧ Proceeds allowed ∧
          Fails policy.permittedQuery s₁ fault) →
      ∀ evaluator, ((authorizeRequest evaluator policy data).run s).1 = .error fault) ∧
    ∀ answer evaluator,
      authorizeRequest evaluator { policy with authorize := .async answer } data =
        authorizeRequest evaluator { policy with authorize := .sync answer } data ∧
      authorizeRequest evaluator { policy with permittedQuery := .async answer } data =
        authorizeRequest evaluator { policy with permittedQuery := .sync answer } data ∧
      shapeResponse { policy with permittedFields := .async answer } content =
        shapeResponse { policy with permittedFields := .sync answer } content := by
  refine ⟨fun v s₁ => authorizeRequest_refused, fun allowed s₁ answer s₂ => authorizeRequest_cases,
    fun v s₁ => shapeResponse_nothing, fun fault fails evaluator => authorizeRequest_of_fails fails,
    fun answer evaluator => ⟨?_, ?_, ?_⟩⟩
  · simp only [authorizeRequest, call_async]
  · simp only [authorizeRequest, call_async]
  · simp only [shapeResponse, call_async]

/-- Zero permits nothing but what holds nothing, an empty text refuses, and of an envelope the
number beside its items is left. -/
theorem fails_closed_zero :
    let policy : Policy :=
      { authorize := .sync (pure (.int 1))
        permittedQuery := .async (pure (.int 0))
        permittedFields := .sync (pure .null) }
    let strict : Policy := { policy with authorize := .async (pure (.text "")) }
    let page : Value := .record [("data", .list [.record [("a", .int 1)]]), ("total", .int 2)]
    (∃ s', (authorizeRequest Evaluator.engine policy (.list [])).run {} = (.ok (), s')) ∧
      (¬ ∃ s', (authorizeRequest Evaluator.engine policy (.list [.null])).run {} = (.ok (), s')) ∧
      (∃ s₂, (authorizeRequest Evaluator.engine strict (.list [])).run {} =
        (.error (.violation { kind := .unauthorized, message := refusal }), s₂)) ∧
      ∃ result s', (shapeResponse policy page).run {} = (.ok result, s') ∧
        ∀ place x, result.Holds place x → x.isContainer = false →
          Response.BesideItems page place x := by
  intro policy strict page
  obtain ⟨-, checked, shaped, -⟩ := fails_closed policy (.list []) page {}
  obtain ⟨-, checked', -⟩ := fails_closed policy (.list [.null]) page {}
  obtain ⟨refused, -⟩ := fails_closed strict (.list []) page {}
  have proceeds : Proceeds (some (.int 1)) := by
    rintro v ⟨⟩
    rfl
  have passes := (checked (some (.int 1)) _ (some (.int 0)) _ rfl proceeds rfl).1 _ rfl rfl
  have passes' := (checked' (some (.int 1)) _ (some (.int 0)) _ rfl proceeds rfl).1 _ rfl rfl
  refine ⟨passes.mpr rfl, fun other => ?_, ?_, ?_⟩
  · cases passes'.mp other
  · obtain ⟨s₂, ends⟩ := refused (.text "") _ rfl rfl
    exact ⟨s₂, ends Evaluator.engine policy.permittedQuery (.list [])⟩
  · obtain ⟨result, s', run, leaves⟩ := shaped .null _ rfl rfl
    refine ⟨result, s', run, fun place x held leaf => ?_⟩
    rcases leaves place x held leaf with ⟨null, _⟩ | beside
    · simp only [page, Value.record, reduceCtorEq] at null
    · exact beside

end Permit.Enforcement
