import Permit.Constraint.Evaluation
import Permit.Session.Basic

/-!
Validations: data held against rules once. A validation is pending until it is run;
after that it cannot be run again, and what the evaluator reported can be read as
often as needed.

An evaluator is a function from the inquiry to an action that ends in
`Fault.rejected` when rules are broken. The call of the evaluator stands between
`Validation.start` and `Validation.conclude`, so that what happens to a validation
while its evaluator is at work can be stated.

* `Validation.run` runs a validation; `Validation.fails` and `Validation.report` read it.
* `Validation.Shared.step` takes on a validation that several callers run and read at a time.
-/
namespace Permit

open Constraint (Breach Extent Formatter Wordings)

structure Inquiry where
  data : Value
  rules : Value
  wordings : Wordings := []
  formatter : Option Formatter := none

/-- Holds data against rules. -/
abbrev Evaluator := Extent → Inquiry → Action Unit

namespace Evaluator

def rulesLog : String := "field_policy.validation.rules"

def errorsOf (formatter : Option Formatter) (breaches : List Breach) : Except Fault Value :=
  match formatter with
  | some f => f breaches
  | none => .ok (Constraint.breachList breaches)

/-- The evaluator that knows the registered rules. -/
def engine : Evaluator := fun extent inquiry => do
  let s ← get
  let breaches ← Action.lift
    (Constraint.evaluate s.rules inquiry.wordings extent inquiry.data inquiry.rules)
  if breaches.isEmpty then return
  Action.log ⟨10, rulesLog,
    "Rule evaluation failed for fields: " ++ Value.quoteTexts (breaches.map (·.field)), none⟩
  throw (.rejected (← Action.lift (errorsOf inquiry.formatter breaches)))

end Evaluator

inductive ValidationState where
  | pending
  | executed
deriving Repr, DecidableEq, Inhabited

def ValidationState.name : ValidationState → String
  | .pending => "PENDING"
  | .executed => "EXECUTED"

inductive Report where
  | asGiven (errors : Value)
  | messages (all : List FieldMessage)
deriving Repr, Inhabited

structure Validation where
  inquiry : Inquiry
  state : ValidationState := .pending
  /-- What the evaluator reported; null if it reported nothing. -/
  errors : Value := .null

namespace Validation

/-- Marks a validation as run. -/
def start (v : Validation) : Except Misuse Validation :=
  match v.state with
  | .executed => .error .runAgain
  | .pending => .ok { v with state := .executed }

/-- Takes in how the evaluator ended: reported errors are kept, any other fault goes on. -/
def conclude (v : Validation) : Except Fault Unit → Except Fault Unit × Validation
  | .error (.rejected errors) => (.ok (), { v with errors })
  | .error fault => (.error fault, v)
  | .ok () => (.ok (), v)

def run (evaluator : Evaluator) (extent : Extent) (v : Validation) :
    StateM Session (Except Fault Unit × Validation) :=
  match v.start with
  | .error misuse => pure (.error (.misuse misuse), v)
  | .ok v => do return v.conclude (← (evaluator extent v.inquiry).outcome)

def fails (v : Validation) : Bool :=
  match v.errors with
  | .null => false
  | _ => true

/-- A part of an error by name: an entry of a mapping, a field of an object, or null. -/
def part (error : Value) (name : String) : Value :=
  match error with
  | .map entries => (Value.field? entries name).getD .null
  | .object _ _ fields => ((fields.find? (·.1 == name)).map (·.2)).getD .null
  | _ => .null

def valueMessage (field : String) : String := "Policy validation failed on query field " ++ field

def messageOf (error : Value) : Except Fault FieldMessage := do
  let field := part error "field"
  let shown ← (field.display).mapError .numeral
  let rule := part error "validation"
  (FieldMessage.read (some field) (some (.text (valueMessage shown))) (some rule)).mapError .issues

/-- What can be read of a validation: the errors as they are if wordings were given or
they are no list, else a message for each. -/
def report (v : Validation) : Except Fault Report :=
  match v.state with
  | .pending => .error (.misuse .readTooEarly)
  | .executed =>
    if !v.fails then .ok (.messages [])
    else if !v.inquiry.wordings.isEmpty then .ok (.asGiven v.errors)
    else
      match v.errors.items? with
      | none => .ok (.asGiven v.errors)
      | some errors => (errors.mapM messageOf).map .messages

/-- Runs a new validation and gives it back. -/
def execute (evaluator : Evaluator) (extent : Extent) (inquiry : Inquiry) : Action Validation :=
  ExceptT.mk do
    let (result, v) ← run evaluator extent { inquiry }
    return result.map fun _ => v

/-!
### Several callers

The only thing that a run waits for is its evaluator; while it waits, others may run or read the
same validation, and the evaluator may end whenever and however it likes. What happens between
two waits happens at once, so a schedule is a list of events, each of which takes the shared
validation on by one step.
-/

inductive Event where
  /-- A run is begun; it goes on up to the call of the evaluator. -/
  | run (extent : Extent)
  /-- A call of the evaluator ends, and so does the run that has waited for it. -/
  | ended (call : Nat) (outcome : Except Fault Unit)
  | readFails
  | readReport
  | readState

inductive Seen where
  | refused (misuse : Misuse)
  /-- The evaluator has been called; the call is known by its number. -/
  | waiting (call : Nat)
  | returned (result : Except Fault Unit)
  | fails (failed : Bool)
  | report (report : Except Fault Report)
  | state (state : ValidationState)

structure EvaluatorCall where
  extent : Extent
  /-- The state in which the evaluator finds the validation. -/
  found : ValidationState
deriving DecidableEq

structure Shared where
  validation : Validation
  calls : List EvaluatorCall := []
  /-- The numbers of those that have not ended. -/
  unfinished : List Nat := []

namespace Shared

def new (inquiry : Inquiry) : Shared := { validation := { inquiry } }

def call (w : Shared) (extent : Extent) : Seen × Shared :=
  (.waiting w.calls.length,
    { w with
      calls := w.calls ++ [⟨extent, w.validation.state⟩]
      unfinished := w.unfinished ++ [w.calls.length] })

/-- What an event does, if it can happen: only a call that has not ended can end. -/
def step (w : Shared) : Event → Option (Seen × Shared)
  | .run extent =>
    match w.validation.start with
    | .error misuse => some (.refused misuse, w)
    | .ok marked => some ({ w with validation := marked }.call extent)
  | .ended number outcome =>
    if number ∈ w.unfinished then
      let (result, concluded) := w.validation.conclude outcome
      some (.returned result,
        { w with validation := concluded, unfinished := w.unfinished.erase number })
    else none
  | .readFails => some (.fails w.validation.fails, w)
  | .readReport => some (.report w.validation.report, w)
  | .readState => some (.state w.validation.state, w)

end Shared

inductive Schedule (w : Shared) : List Event → Shared → Prop where
  | start : Schedule w [] w
  | next {events : List Event} {e : Event} {seen : Seen} {v v' : Shared} :
      Schedule w events v → v.step e = some (seen, v') → Schedule w (events ++ [e]) v'

end Validation

namespace Session

def extendExpectation : String := "PolicyValidator.extend expects 2nd parameter to be a function"

def engineExpectation : String := "PolicyValidator.extend requires a RuleEngine evaluator"

inductive Offer where
  | function (f : Constraint.RuleFunction)
  | value (v : Value)

/-- The function to register with an evaluator, which must be the engine; `foreign`
is what stands in its place. -/
def registrable (foreign : Option Value) : Offer → Except Fault Constraint.RuleFunction
  | .value v => .error (Fault.ofArgument extendExpectation v)
  | .function f =>
    match foreign with
    | some v => .error (Fault.ofArgument engineExpectation v)
    | none => .ok f

def extend (rule : String) (offer : Offer) : Action Unit := do
  let f ← Action.lift (registrable none offer)
  modify fun s => { s with rules := s.rules.register rule f }

end Session
end Permit
