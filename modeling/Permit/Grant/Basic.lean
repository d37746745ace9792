import Permit.Keyed
import Permit.Path.Basic

/-!
A grant says how much of a value is permitted: all of it, some of its fields or
some of its elements. Grants form a tree; the children of a grant of fields are
keyed by field name, those of a grant of elements by selector.

* `Grant.element?` is the grant for one element: that of its own index first, then
  that of `*`.
-/
namespace Permit

inductive GrantKind where
  | whole
  | fields
  | elements
deriving Repr, DecidableEq, Inhabited

namespace GrantKind

def name : GrantKind → String
  | .whole => "literal"
  | .fields => "object"
  | .elements => "array"

def all : List GrantKind := [.whole, .fields, .elements]

def ofName? (name : String) : Option GrantKind := all.find? (·.name == name)

theorem ofName?_name (k : GrantKind) : ofName? k.name = some k := by
  cases k <;> decide +kernel

end GrantKind

inductive Grant where
  | node (kind : GrantKind) (children : List (String × Grant))
deriving Repr, Inhabited

namespace Grant

def kind : Grant → GrantKind
  | .node kind _ => kind

def children : Grant → List (String × Grant)
  | .node _ children => children

def whole : Grant := .node .whole []

def isWhole (g : Grant) : Bool := g.kind == .whole

/-- The grant for the element at a position; a position may be negative. -/
def element? (g : Grant) (index : Int) : Option Grant :=
  match Keyed.find? g.children (Number.intText index) with
  | some own => some own
  | none => Keyed.find? g.children Path.wildcard

mutual

def height : Grant → Nat
  | .node _ children => childrenHeight children

def childrenHeight : List (String × Grant) → Nat
  | [] => 0
  | (_, g) :: rest => max (g.height + 1) (childrenHeight rest)

end

end Grant

structure GrantTree where
  root : Grant := .node .fields []
  paths : List String := []
deriving Repr, Inhabited

namespace GrantTree

def children (t : GrantTree) : List (String × Grant) := t.root.children

/-- Whether the tree permits nothing. -/
def isEmpty (t : GrantTree) : Bool := t.root.children.isEmpty

end GrantTree
end Permit
