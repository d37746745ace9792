import Permit.Authorization

/-!
Policies and their enforcement. A policy answers up to three questions about a
request; one that it does not answer is no restriction, and neither is the answer
`true` to a question for paths. Any other answer that does not hold as a condition
permits nothing.
-/
namespace Permit

/-- What calling a hook gives: its answer, or something to wait for that gives it. -/
inductive Reply where
  | now (answer : Value)
  | later (answer : Action Value)

/-- What a policy has under the name of one of the questions. -/
inductive Hook where
  | undefined
  | attribute (v : Value)
  | method (call : Action Reply)

namespace Hook

/-- A hook that answers when it is called. -/
def sync (answer : Action Value) : Hook := .method do return .now (← answer)

/-- A hook that does nothing until its answer is waited for. -/
def async (answer : Action Value) : Hook := .method (return .later answer)

end Hook

structure Policy where
  name : String := "Policy"
  /-- Whether the request may proceed at all. -/
  authorize : Hook := .undefined
  permittedQuery : Hook := .undefined
  permittedFields : Hook := .undefined

namespace Enforcement

def refusal : String :=
  "Unauthorized request. Make sure to handle it inside policy.authorize method"

def enforcerLog : String := "field_policy.policy.enforcer"

/-- The answer to wait for, or the one that is there. -/
def await : Reply → Action Value
  | .now answer => return answer
  | .later answer => answer

/-- What a hook answers, if it can be called. -/
def call : Hook → Action (Option Value)
  | .undefined => return none
  | .attribute _ => return none
  | .method reply => return some (← await (← reply))

/-- The paths that an answer permits: none declared if it lifts the restriction, and
an empty list if it does not hold. -/
def permittedBy : Option Value → Value
  | none => .null
  | some (.bool true) => .null
  | some v => if v.isTrue then v else .list []

def authorizeRequest (evaluator : Evaluator) (policy : Policy) (data : Value) : Action Unit :=
  Action.within "field_policy.authorize_request" do
    if (← call policy.authorize).any (!·.isTrue) then
      Action.log ⟨20, enforcerLog, s!"Policy {policy.name} rejected the request", none⟩
      throw (.violation { kind := .unauthorized, message := refusal })
    let permitted := permittedBy (← call policy.permittedQuery)
    Authorization.check evaluator permitted data

/-- The part of a response that a policy permits. -/
def shapeResponse (policy : Policy) (content : Value) : Action Value := do
  Authorization.projectResponse (permittedBy (← call policy.permittedFields)) content

end Enforcement
end Permit
