import Permit.Session.Compilation
import Permit.Validation

/-!
Authorizing the fields and values of a request, and shaping responses.

Permitted paths are declared as a list, or as a mapping from paths to rules; a path
without rules has the default ones. Nothing declared means no restriction, an empty
declaration permits nothing.

The request is checked for fields that are not permitted first, by comparing it with
its own projection; only then are its values held against the rules.
-/
namespace Permit.Authorization

open Constraint (Extent)

def expectation : String :=
  "Permitted query must be a sequence of paths or a mapping of path to rules"

/-- The rules of a path, or the default ones if there are none. -/
def rulesOr (default : String) : Value → Value
  | .null => .text default
  | rules => rules

/-- The declared paths with their rules; none if nothing is declared. -/
def normalize (default : String) (permitted : Value) :
    Except Fault (Option (List (Value × Value))) :=
  match permitted with
  | .null => .ok none
  | .text s => .error (Fault.ofArgument expectation (.text s))
  | .map entries => .ok (some (entries.map fun (path, rules) => (path, rulesOr default rules)))
  | v =>
    match v.elements? with
    | none => .error (Fault.ofArgument expectation v)
    | some items =>
      match Value.unkeyableItem? items with
      | some typeName => .error (.unkeyable typeName)
      | none =>
        .ok (some (items.foldl (fun paths path => Value.put paths path (.text default)) []))

def declared (permitted : Value) : Action (Option (List (Value × Value))) := do
  Action.lift (normalize (← get).settings.defaultRule permitted)

/-- Absent data count as an empty mapping. -/
def orEmpty : Value → Value
  | .null => .map []
  | data => data

def fieldsCheck : String := "fields"
def valuesCheck : String := "values"
def requestCheck : String := "request"

def serviceLog : String := "field_policy.services.field_authorization"

def rejectedAttribute : String := "field_policy.rejected_fields"

def fieldMessage (field : String) : FieldMessage :=
  ⟨field, s!"Not authorized on query field {field}.", none⟩

def reject (check what : String) (kind : ViolationKind) (messages : List FieldMessage) :
    Action Unit := do
  Action.setAttribute rejectedAttribute messages.length
  Action.log ⟨20, serviceLog, s!"Rejected request with unauthorized {what}: " ++
    Value.quoteTexts (messages.map (·.field)), some check⟩
  Session.recordAuthorization check "rejected" messages.length
  throw (.violation { kind, messages })

/-- The paths at which data differ from their permitted part. -/
def unauthorized (limit : Int) (tree : GrantTree) (data : Value) : Except Fault (List String) :=
  ((Diff.between limit (tree.project data) data).mapError Fault.ofDiff).map fun changes =>
    changes.map (·.1)

/-- Rejects data that hold a field outside of the permitted paths. -/
def checkFields (permitted data : Value) : Action Unit := do
  match ← declared permitted with
  | none => return
  | some rules =>
    Action.within "field_policy.authorize_fields" do
      let compiled ← Session.compileItems (rules.map (·.1))
      let fields ← Action.lift
        (unauthorized (← get).settings.maxDiffDepth compiled.tree (orEmpty data))
      if fields.isEmpty then Session.recordAuthorization fieldsCheck "allowed"
      else reject fieldsCheck "fields" .fields (fields.map fieldMessage)

/-- What stands for the errors in a value that is no list of them: the characters of a text,
the keys of a mapping, the numbers of bytes. -/
def errorsWithin? : Value → Option (List Value)
  | .text s => some (s.toList.map fun c => .text c.toString)
  | .bytes b => some (b.map fun byte => .int byte.toNat)
  | .map entries => some (entries.map (·.1))
  | _ => none

/-- Errors that are no list can be gone through only where there are none. -/
def readUnlisted (errors : Value) : Except Fault (List FieldMessage) :=
  match errorsWithin? errors with
  | none => .error (.unsized errors.typeName)
  | some [] => .ok []
  | some (first :: _) => .error (.badError first.typeName)

def messagesOf (v : Validation) : Except Fault (List FieldMessage) := do
  match ← v.report with
  | .messages all => return all
  | .asGiven errors => readUnlisted errors

/-- Rejects data with values that break the rules of their paths. -/
def checkValues (evaluator : Evaluator) (permitted data : Value) : Action Unit := do
  match ← declared permitted with
  | none => return
  | some rules =>
    Action.within "field_policy.authorize_field_values" do
      let v ← Validation.execute evaluator .all { data := orEmpty data, rules := .map rules }
      if !v.fails then Session.recordAuthorization valuesCheck "allowed"
      else reject valuesCheck "field values" .values (← Action.lift (messagesOf v))

/-- Runs an action and counts how the request fared: violations are rejections, other
faults are not counted. -/
def counted (action : Action Unit) : Action Unit := do
  try action
  catch
    | .violation v => do
      Session.recordAuthorization requestCheck "rejected"
      throw (.violation v)
    | fault => throw fault
  Session.recordAuthorization requestCheck "allowed"

/-- Checks the fields of a request and then its values. -/
def check (evaluator : Evaluator) (permitted data : Value) : Action Unit :=
  counted do
    checkFields permitted data
    checkValues evaluator permitted data

/-- The permitted part of a response; without permitted paths all of it. -/
def projectResponse (permitted content : Value) : Action Value := do
  match permitted with
  | .null => return content
  | permitted => do
    Session.recordProjection "response"
    Session.shapeResponse permitted content

end Permit.Authorization
