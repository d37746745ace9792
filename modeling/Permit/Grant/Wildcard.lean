import Permit.Grant.Insert

namespace Permit.Grant

mutual

/-- A grant widened by another one. The segments `at` lead to it. -/
def merge (place : List String) : Grant → Option Grant → Except PathFault Grant
  | .node .whole _, target => .ok (target.getD whole)
  | .node .fields wider, target => do
    let key := Path.ofSegments place
    return .node .fields (← mergeChildren place wider (← asFields key key target))
  | .node .elements wider, target => do
    let key := Path.ofSegments place
    return .node .elements (← mergeChildren place wider (← asElements key key target))

def mergeChildren (place : List String) :
    List (String × Grant) → List (String × Grant) → Except PathFault (List (String × Grant))
  | [], children => .ok children
  | (key, g) :: rest, children => do
    let widened ← merge (place ++ [key]) g (Keyed.find? children key)
    mergeChildren place rest (Keyed.put children key widened)

end

/-- The elements of a grant with what is granted for all merged into each. -/
def spread (place : List String) (elements : List (String × Grant)) :
    Except PathFault (List (String × Grant)) :=
  match Keyed.find? elements Path.wildcard with
  | none => .ok elements
  | some every =>
    elements.mapM fun (selector, g) =>
      if selector = Path.wildcard then .ok (selector, g)
      else (merge (place ++ [selector]) every (some g)).map fun widened => (selector, widened)

/-- Spreads the wildcards of all grants down to `depth` levels, the upper ones first. -/
def closeTo (depth : Nat) (place : List String) (children : List (String × Grant)) :
    Except PathFault (List (String × Grant)) :=
  match depth with
  | 0 => .ok children
  | depth + 1 =>
    children.mapM fun (key, g) => do
      let here := place ++ [key]
      let below ← if g.kind = .elements then spread here g.children else pure g.children
      return (key, .node g.kind (← closeTo depth here below))

/-- Spreads the wildcards of all grants. Spreading adds no level, so the levels
there are suffice. -/
def close (children : List (String × Grant)) : Except PathFault (List (String × Grant)) :=
  closeTo (childrenHeight children) [] children

end Permit.Grant
