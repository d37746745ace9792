import Permit.Grant.Basic

namespace Permit.Grant

/-- Grants a key whole, unless something is granted under it already. -/
def allowWhole (children : List (String × Grant)) (key : String) : List (String × Grant) :=
  match Keyed.find? children key with
  | some _ => children
  | none => children ++ [(key, whole)]

/-- The children of a grant that is to be one of fields. -/
def asFields (key path : String) : Option Grant → Except PathFault (List (String × Grant))
  | none => .ok []
  | some g => if g.kind = .elements then .error (.elementsAsFields key path) else .ok g.children

/-- The children of a grant that is to be one of elements. -/
def asElements (key path : String) : Option Grant → Except PathFault (List (String × Grant))
  | none => .ok []
  | some g => if g.kind = .fields then .error (.fieldsAsElements key path) else .ok g.children

/-- Adds the rest of a path, its segments not yet followed, below the segments
`before` that lead to the children. -/
def insert (path : String) (children : List (String × Grant)) (before : List String) :
    List String → Except PathFault (List (String × Grant))
  | [] => .ok children
  | [last] => .ok (allowWhole children last)
  | segment :: next :: rest => do
    let here := before ++ [segment]
    if Path.isSelector next then
      let elements ← asElements (Path.ofSegments here) path (Keyed.find? children segment)
      match rest with
      | [] => return Keyed.put children segment (.node .elements (allowWhole elements next))
      | after :: more =>
        let there := here ++ [next]
        let fields ← asFields (Path.ofSegments there) path (Keyed.find? elements next)
        let fields ← insert path fields there (after :: more)
        let elements := Keyed.put elements next (.node .fields fields)
        return Keyed.put children segment (.node .elements elements)
    else
      let fields ← asFields (Path.ofSegments here) path (Keyed.find? children segment)
      let fields ← insert path fields here (next :: rest)
      return Keyed.put children segment (.node .fields fields)

end Permit.Grant
