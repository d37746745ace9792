import Permit.Pattern.Fault
import Permit.Value.Quoted

namespace Permit.Constraint

inductive DefinitionFault where
  /-- A definition that is neither a text nor a list of texts, as quoted. -/
  | notRules (shown : String)
  /-- Rules that are no mapping from fields, as quoted. -/
  | notMapping (shown : String)
  | unknownRule (name : String)
  | notOneArgument (rule : String) (args : List String)
  | notNumeric (rule : String) (args : List String)
  | noPattern
  | badPattern (args : List String) (pattern : String) (fault : Pattern.PatternFault)
deriving Repr

namespace DefinitionFault

def message : DefinitionFault → String
  | .notRules _ => "Rules must be defined as a string or an array"
  | .notMapping _ => "Rules must be a mapping of field to rule definition"
  | .unknownRule name => s!"'{name}' is not defined as a validation rule"
  | .notOneArgument rule _ => s!"Rule '{rule}' expects exactly one argument"
  | .notNumeric rule _ => s!"Rule '{rule}' expects a numeric argument"
  | .noPattern => "Rule 'regex' expects a pattern argument"
  | .badPattern _ pattern fault =>
    "Rule 'regex' has an invalid pattern: " ++ fault.message pattern

def details : DefinitionFault → Value
  | .notRules shown => .record [("definition", .text shown)]
  | .notMapping shown => .record [("rules", .text shown)]
  | .unknownRule name => .record [("rule", .text name)]
  | .notOneArgument _ args => .record [("args", .texts args)]
  | .notNumeric _ args => .record [("args", .texts args)]
  | .noPattern => .record []
  | .badPattern args _ _ => .record [("args", .texts args)]

end DefinitionFault
end Permit.Constraint
