import Permit.Constraint.Check
import Permit.Constraint.Field
import Permit.Constraint.Wording

/-!
Holding data against rules. The definitions of all fields are read first; then the
rules of each field are tried in the order in which they were declared, either up to
the first one that is broken or all of them. A field that is absent is held against
those rules only that look at absent fields.

* `Constraint.evaluate` lists the breaches of data against rules.
-/
namespace Permit.Constraint

/-- Whether an evaluation ends with the first breach. -/
inductive Extent where
  | first
  | all
deriving Repr, DecidableEq, Inhabited

structure Breach where
  message : String
  field : String
  rule : String
deriving Repr, DecidableEq, Inhabited

def Breach.toValue (b : Breach) : Value :=
  .record [("message", .text b.message), ("field", .text b.field), ("validation", .text b.rule)]

/-- What breaches are turned into before they are reported. -/
abbrev Formatter := List Breach → Except Fault Value

def breachList (breaches : List Breach) : Value := .list (breaches.map Breach.toValue)

/-- Whether an evaluation ends with these breaches. -/
def Extent.endsWith (extent : Extent) (breaches : List Breach) : Bool :=
  extent == .first && !breaches.isEmpty

/-- The breaches found among the elements of a list, one after the other. -/
def gather {α : Type} (extent : Extent) (find : α → Except Fault (List Breach)) :
    List α → Except Fault (List Breach)
  | [] => .ok []
  | x :: rest => do
    let found ← find x
    if extent.endsWith found then return found
    else return found ++ (← gather extent find rest)

def readKnown (rules : RuleSet) (definition : Value) : Except Fault (List Constraint) := do
  let constraints ← read definition
  match constraints.find? fun c => (rules.find? c.rule).isNone with
  | some c => throw (.definition (.unknownRule c.rule))
  | none => return constraints

def breach? (rules : RuleSet) (wordings : Wordings) (pattern : String) (field : Field)
    (c : Constraint) : Except Fault (List Breach) := do
  if field.value.isNone && !looksAtAbsent c.rule then return []
  match rules.find? c.rule with
  | none => throw (.definition (.unknownRule c.rule))
  | some f =>
    if (← f field.value c.args).isTrue then return []
    else return [⟨← wordings.text pattern field.path c.rule c.args, field.path, c.rule⟩]

def patternText : Value → Except Fault String
  | .text pattern => .ok pattern
  | v => .error (.badField v)

def breachesOf (rules : RuleSet) (wordings : Wordings) (extent : Extent) (data : Value)
    (entry : Value × List Constraint) : Except Fault (List Breach) := do
  let pattern ← patternText entry.1
  let fields ← fields data pattern
  gather extent (fun field => gather extent (breach? rules wordings pattern field) entry.2) fields

def readAll (rules : RuleSet) (declared : Value) :
    Except Fault (List (Value × List Constraint)) :=
  match declared with
  | .map entries => entries.mapM fun (pattern, definition) => do
    return (pattern, ← readKnown rules definition)
  | v =>
    match v.quote with
    | .ok shown => .error (.definition (.notMapping shown))
    | .error fault => .error (.numeral fault)

/-- The breaches of data against the declared rules. -/
def evaluate (rules : RuleSet) (wordings : Wordings) (extent : Extent) (data declared : Value) :
    Except Fault (List Breach) := do
  gather extent (breachesOf rules wordings extent data) (← readAll rules declared)

end Permit.Constraint
