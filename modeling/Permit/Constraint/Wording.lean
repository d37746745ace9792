import Permit.Fault.Basic
import Permit.Keyed
import Permit.Template.Basic

namespace Permit.Constraint

inductive Wording where
  | template (v : Value)
  | function (f : String → String → List String → Except Fault Value)

def textOf (v : Value) : Except Fault String := v.display.mapError .numeral

def Wording.text (w : Wording) (field rule : String) (args : List String) :
    Except Fault String :=
  match w with
  | .template v => do
    let template ← textOf v
    (Template.fill [("field", field), ("validation", rule), ("args", ", ".intercalate args)]
      template).mapError .template
  | .function f => f field rule args >>= textOf

def plainWording (field rule : String) : String := rule ++ " validation failed on " ++ field

abbrev Wordings := List (String × Wording)

namespace Wordings

/-- The wording for a field that a pattern stands for and a rule. -/
def choose (wordings : Wordings) (pattern field rule : String) : Option Wording :=
  (Keyed.find? wordings (field ++ "." ++ rule)).or
    ((Keyed.find? wordings (pattern ++ "." ++ rule)).or (Keyed.find? wordings rule))

/-- The text for a field that a pattern stands for, a rule and its arguments. -/
def text (wordings : Wordings) (pattern field rule : String) (args : List String) :
    Except Fault String :=
  match choose wordings pattern field rule with
  | some w => w.text field rule args
  | none => .ok (plainWording field rule)

end Wordings
end Permit.Constraint
