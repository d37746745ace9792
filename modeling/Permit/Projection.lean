import Permit.Grant.Basic
import Permit.Value.Basic

/-!
The part of a value that a tree of grants permits. Nothing is refused here: a value
whose shape does not fit its grant is left out, so a projection fails closed.

* A whole grant keeps the value as it is.
* A grant of fields keeps, in their order, the entries of a mapping whose keys are
  texts with a grant of their own.
* A grant of elements keeps the elements of a sequence up to the first one without
  a grant. Leaving out a single element would move the later ones under the grants
  of other indexes, so an element of the wrong shape is replaced by an empty one.
  Without any grants for elements, all of them are kept.
-/
namespace Permit.Grant

/-- What stands for an element that does not fit its grant. -/
def placeholder (g : Grant) : Value := if g.kind = .elements then .list [] else .map []

mutual

/-- The permitted part of a value, if its shape fits the grant. -/
def project (g : Grant) : Value → Option Value
  | .map entries =>
    match g.kind with
    | .whole => some (.map entries)
    | .fields => some (.map (projectEntries g.children entries))
    | .elements => none
  | .list items =>
    match g.kind with
    | .whole => some (.list items)
    | .fields => none
    | .elements => some (.list (if g.children.isEmpty then items else projectItems g 0 items))
  | .tuple items =>
    match g.kind with
    | .whole => some (.tuple items)
    | .fields => none
    | .elements => some (.list (if g.children.isEmpty then items else projectItems g 0 items))
  | v => if g.kind = .whole then some v else none

def projectEntries (grants : List (String × Grant)) :
    List (Value × Value) → List (Value × Value)
  | [] => []
  | (key, v) :: rest =>
    match key with
    | .text name =>
      match (Keyed.find? grants name).bind fun g => project g v with
      | some kept => (key, kept) :: projectEntries grants rest
      | none => projectEntries grants rest
    | _ => projectEntries grants rest

/-- The permitted elements of a sequence, from a position on. -/
def projectItems (g : Grant) (index : Nat) : List Value → List Value
  | [] => []
  | v :: rest =>
    match g.element? index with
    | some own => (project own v).getD own.placeholder :: projectItems g (index + 1) rest
    | none => []

end

theorem projectEntries_text (grants : List (String × Grant)) (name : String) (v : Value)
    (rest : List (Value × Value)) :
    projectEntries grants ((.text name, v) :: rest) =
      (((Keyed.find? grants name).bind fun g => project g v).map (Value.text name, ·)).toList ++
        projectEntries grants rest := by
  simp only [projectEntries]
  cases (Keyed.find? grants name).bind fun g => project g v <;> rfl

theorem projectEntries_other (grants : List (String × Grant)) {key : Value}
    (other : ∀ name, key ≠ .text name) (v : Value) (rest : List (Value × Value)) :
    projectEntries grants ((key, v) :: rest) = projectEntries grants rest := by
  cases key with
  | text name => exact absurd rfl (other name)
  | _ => rfl

end Permit.Grant

namespace Permit.GrantTree

/-- The permitted part of a value as a mapping; an empty one if the value is none. -/
def project (tree : GrantTree) : Value → Value
  | .map entries => .map (Grant.projectEntries tree.children entries)
  | _ => .map []

def projectAll (tree : GrantTree) (values : List Value) : List Value := values.map tree.project

end Permit.GrantTree
