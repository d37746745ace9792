import Permit.Constraint.Fault
import Permit.Diff
import Permit.Log.Record
import Permit.Path.Basic
import Permit.Template.Fault
import Permit.Violation

namespace Permit

structure ArgumentFault where
  expectation : String
  typeName : String
  shown : String
deriving Repr, DecidableEq

namespace ArgumentFault

def of (expectation : String) (given : Value) : Except Number.NumeralFault ArgumentFault := do
  return ⟨expectation, given.typeName, ← given.quote⟩

def message (f : ArgumentFault) : String := s!"{f.expectation} instead received {f.typeName}"

def details (f : ArgumentFault) : Value := .record [("value", .text f.shown)]

end ArgumentFault

inductive Misuse where
  | runAgain
  | readTooEarly
deriving Repr, DecidableEq

def Misuse.message : Misuse → String
  | .runAgain => "Cannot re-run validations on same data and rules"
  | .readTooEarly => "Cannot read messages before running the validation"

inductive Fault where
  | path (fault : PathFault)
  | violation (v : Violation)
  /-- Data break the rules; the errors are as a formatter has left them. -/
  | rejected (errors : Value)
  | misuse (m : Misuse)
  | definition (fault : Constraint.DefinitionFault)
  | argument (fault : ArgumentFault)
  | issues (all : List Issue)
  | numeral (fault : Number.NumeralFault)
  | refused (refusal : Refusal)
  | template (fault : TemplateFault)
  | pattern (kind : FaultKind) (pattern : String) (fault : Pattern.PatternFault)
  | record (fault : Log.RecordFault)
  | level (fault : Log.LevelFault)
  /-- A value that cannot be a key, by the name of the type at fault. -/
  | unkeyable (typeName : String)
  /-- A value that has no elements, by the name of its type. -/
  | notIterable (typeName : String)
  /-- A value without a number of elements, by the name of its type. -/
  | unsized (typeName : String)
  | noKey (key : Value)
  /-- Something that is not a text stands for a field. -/
  | badField (field : Value)
  /-- Something that names no field stands for an error, by the name of its type. -/
  | badError (typeName : String)
  | negativeAmount
  /-- A failure raised by a function of the caller. -/
  | raised (kind : FaultKind) (text : String)
deriving Repr

namespace Fault

def ofDiff : DiffFault → Fault
  | .numeral fault => .numeral fault
  | .refused refusal => .refused refusal

/-- The kind of a failure of the general sort; the others are the library's own. -/
def kind? : Fault → Option FaultKind
  | .numeral fault => some fault.kind
  | .refused refusal => some refusal.kind
  | .template fault => some fault.kind
  | .pattern kind _ _ => some kind
  | .record fault => some fault.kind
  | .level fault => some fault.kind
  | .unkeyable _ => some .type
  | .notIterable _ => some .type
  | .unsized _ => some .type
  | .noKey _ => some .key
  | .badField (.bytes _) => some .type
  | .badField _ => some .attribute
  | .badError _ => some .attribute
  | .negativeAmount => some .value
  | .raised kind _ => some kind
  | _ => none

def message : Fault → String
  | .path fault => fault.message
  | .violation v => v.message
  | .rejected _ => "Validation failed"
  | .misuse m => m.message
  | .definition fault => fault.message
  | .argument fault => fault.message
  | .issues all => "; ".intercalate (all.map fun i => i.complaint.message)
  | .numeral fault => fault.message
  | .refused refusal => refusal.message
  | .template fault => fault.message
  | .pattern _ given fault => fault.message given
  | .record fault => fault.text
  | .level fault => fault.message
  | .unkeyable typeName => s!"unhashable type: '{typeName}'"
  | .notIterable typeName => s!"'{typeName}' object is not iterable"
  | .unsized typeName => s!"object of type '{typeName}' has no len()"
  | .noKey key => key.quote.toOption.getD ""
  | .badField (.bytes _) => "a bytes-like object is required, not 'str'"
  | .badField field => s!"'{field.typeName}' object has no attribute 'split'"
  | .badError typeName => s!"'{typeName}' object has no attribute 'field'"
  | .negativeAmount => "Counters can only be incremented by non-negative amounts."
  | .raised _ text => text

def details : Fault → Value
  | .path fault => fault.details
  | .violation v => v.details
  | .definition fault => fault.details
  | .argument fault => fault.details
  | _ => .record []

end Fault

def Fault.ofArgument (expectation : String) (given : Value) : Fault :=
  match ArgumentFault.of expectation given with
  | .ok fault => .argument fault
  | .error fault => .numeral fault

end Permit
