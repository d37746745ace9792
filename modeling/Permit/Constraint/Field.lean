import Permit.Fault.Basic
import Permit.Number.Numeral
import Permit.Path.Basic
import Permit.Value.Equality

namespace Permit.Constraint

/-- A field by its path, and its value if the data have one there. -/
structure Field where
  path : String
  value : Option Value
deriving Repr, Inhabited

def extend (path segment : String) : String :=
  if path = "" then segment else path ++ "." ++ segment

/-- The value that a segment leads to. A segment of digits is a position in a sequence. -/
def step? (segment : String) : Option Value → Except Fault (Option Value)
  | none => .ok none
  | some (.map entries) => .ok (Value.field? entries segment)
  | some v =>
    match v.items? with
    | none => .ok none
    | some items =>
      if !segment.isEmpty && segment.toList.all Text.isDigit then
        match Number.readPosition segment with
        | .ok n => .ok items[n]?
        | .error fault => .error (.numeral fault)
      else .ok none

def elementFields (path : String) (index : Nat) : List Value → List Field
  | [] => []
  | v :: rest =>
    ⟨extend path (Number.natText index), some v⟩ :: elementFields path (index + 1) rest

/-- The fields that a segment leads to from a field. -/
def follow (segment : String) (field : Field) : Except Fault (List Field) :=
  if segment = Path.wildcard then
    .ok (match field.value.bind Value.items? with
      | some items => elementFields field.path 0 items
      | none => [])
  else do return [⟨extend field.path segment, ← step? segment field.value⟩]

def followAll : List String → List Field → Except Fault (List Field)
  | [], fields => .ok fields
  | segment :: rest, fields => do
    let next ← fields.mapM (follow segment)
    followAll rest next.flatten

/-- The fields of data that a pattern stands for. -/
def fields (data : Value) (pattern : String) : Except Fault (List Field) :=
  followAll (Path.segments pattern) [⟨"", some data⟩]

end Permit.Constraint
