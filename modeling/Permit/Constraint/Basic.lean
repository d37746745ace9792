import Permit.Constraint.Fault
import Permit.Fault.Basic
import Permit.Text.Basic

/-!
Constraints on the value of a field: rules by name, each with its arguments, written
`name:arg,arg` and separated by `|`, or listed one by one.

The argument of a rule that takes it whole, a pattern or a text to be equal to, may
hold commas.

* `Constraint.readToken` reads one rule; `Constraint.read` reads a definition.
-/
namespace Permit

structure Constraint where
  rule : String
  args : List String
deriving Repr, DecidableEq, Inhabited

namespace Constraint

/-- The rules whose argument is taken whole. -/
def takesWhole (name : String) : Bool := name == "regex" || name == "equals"

def readArgs (name : List Char) (raw : List Char) : List String :=
  if raw.isEmpty then []
  else if takesWhole (String.ofList name) then [String.ofList raw]
  else (Text.splitChars ',' raw).map fun arg => String.ofList (Text.trimChars arg)

/-- Reads a token; a blank one is no rule. -/
def readToken (token : String) : Option Constraint :=
  let cs := Text.trimChars token.toList
  if cs.isEmpty then none
  else
    let (name, raw) := Text.cutChars ':' cs
    some ⟨String.ofList (Text.trimChars name), readArgs name (raw.getD [])⟩

def texts? : List Value → Option (List String)
  | [] => some []
  | .text s :: rest => (texts? rest).map (s :: ·)
  | _ :: _ => none

theorem texts?_texts (texts : List String) : texts? (texts.map .text) = some texts := by
  induction texts with
  | nil => rfl
  | cons text rest ih => exact congrArg (Option.map (text :: ·)) ih

def tokens? (definition : Value) : Option (List String) :=
  match definition with
  | .text s => some (Text.split '|' s)
  | v => v.items?.bind texts?

def read (definition : Value) : Except Fault (List Constraint) :=
  match tokens? definition with
  | some tokens => .ok (tokens.filterMap readToken)
  | none =>
    match definition.quote with
    | .ok shown => .error (.definition (.notRules shown))
    | .error fault => .error (.numeral fault)

end Constraint
end Permit
