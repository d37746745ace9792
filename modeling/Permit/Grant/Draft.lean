import Permit.Grant.Basic
import Permit.Issue

namespace Permit

inductive Draft where
  /-- A node with the name of its kind, if what stands there is a name at all. -/
  | node (kind : Option String) (children : List (String × Draft))
deriving Repr, Inhabited

namespace Draft

def kindAt (place : List String) (name : Option String) : Reading GrantKind :=
  match name.bind GrantKind.ofName? with
  | some kind => .ok kind
  | none => .error [⟨place ++ ["kind"], .notListed (GrantKind.all.map GrantKind.name)⟩]

mutual

/-- The grant that a draft describes, or all that is wrong with its kinds. -/
def toGrant (place : List String) : Draft → Reading Grant
  | .node name children =>
    (Reading.both (kindAt place name) (childrenToGrants (place ++ ["children"]) children)).map
      fun (kind, grants) => .node kind grants

def childrenToGrants (place : List String) :
    List (String × Draft) → Reading (List (String × Grant))
  | [] => .ok []
  | (key, draft) :: rest =>
    (Reading.both (toGrant (place ++ [key]) draft) (childrenToGrants place rest)).map
      fun (g, grants) => (key, g) :: grants

end

def toTree (draft : Draft) : Reading GrantTree :=
  (draft.toGrant []).map fun root => ⟨root, []⟩

end Draft
end Permit
