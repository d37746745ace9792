import Permit.Value.Basic

namespace Permit.Value

/-- Whether an object converts when it is nested in one of the other kind. -/
def convertsWithin (outer inner : ObjectKind) : Bool :=
  match outer, inner with
  | _, .record => true
  | .model, .model => true
  | _, _ => false

mutual

/-- Converts the objects nested in a value, inside an object of the given kind. -/
def plainWithin (outer : ObjectKind) : Value → Value
  | .list items => .list (plainItems outer items)
  | .tuple items => .tuple (plainItems outer items)
  | .map entries => .map (plainEntries outer entries)
  | .object identity inner fields =>
    if convertsWithin outer inner then .map (plainFields outer fields)
    else .object identity inner fields
  | v => v

def plainItems (outer : ObjectKind) : List Value → List Value
  | [] => []
  | v :: rest => plainWithin outer v :: plainItems outer rest

def plainEntries (outer : ObjectKind) : List (Value × Value) → List (Value × Value)
  | [] => []
  | (k, v) :: rest => (k, plainWithin outer v) :: plainEntries outer rest

def plainFields (outer : ObjectKind) : List (String × Value) → List (Value × Value)
  | [] => []
  | (name, v) :: rest => (.text name, plainWithin outer v) :: plainFields outer rest

end

/-- The plain data an object stands for; any other value is unchanged. -/
def toPlain : Value → Value
  | .object _ .record fields => .map (plainFields .record fields)
  | .object _ .model fields => .map (plainFields .model fields)
  | .renderable _ plain => plain
  | v => v

end Permit.Value
