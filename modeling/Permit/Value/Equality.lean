import Permit.Fault.Kind
import Permit.Value.Basic

/-!
When two values are the same, in two senses.

* `Value.sameKey` says when two keys of a mapping are one key: numbers by exact
  value whatever their type, everything else within its type, an object or a
  number that is not one only with itself.
* `Value.equal` is the equality by which changes are found: a flag differs from
  every number, lists and tuples agree element by element, mappings agree key by
  key in any order. It refuses where an object refuses to be compared with
  anything but itself.
-/
namespace Permit

open Number (Binary64)

namespace Refusal

def kind : Refusal → FaultKind
  | .type => .type
  | .value => .value
  | .runtime => .runtime

def message : Refusal → String := fun _ => "ambiguous"

end Refusal

namespace Value

/-- Equality of numbers by exact value; a number that is not one is the same only
as its own copies. -/
def sameNumber : Value → Value → Bool
  | .int m, .int n => m == n
  | .int m, .float y => y.eqInt m
  | .float x, .int n => x.eqInt n
  | .float (.nan i), .float (.nan j) => i == j
  | .float x, .float y => x.eq y
  | _, _ => false

/-- A flag as the number it counts as among keys. -/
def asNumber : Value → Value
  | .bool b => .int (if b then 1 else 0)
  | v => v

mutual

/-- Whether two keys are one key of a mapping. -/
def sameKey : Value → Value → Bool
  | .null, .null => true
  | .text s, .text t => s == t
  | .bytes s, .bytes t => s == t
  | .tuple xs, .tuple ys => sameKeys xs ys
  | .object i _ _, .object j _ _ => i == j
  | .renderable i _, .renderable j _ => i == j
  | .incomparable i _, .incomparable j _ => i == j
  | x, y => sameNumber x.asNumber y.asNumber

def sameKeys : List Value → List Value → Bool
  | [], [] => true
  | x :: xs, y :: ys => sameKey x y && sameKeys xs ys
  | _, _ => false

end

def find? (entries : List (Value × Value)) (key : Value) : Option Value :=
  match entries with
  | [] => none
  | (k, v) :: rest => if sameKey k key then some v else find? rest key

/-- Whether every key of the first list of entries is one of the second. -/
def keysWithin (xs ys : List (Value × Value)) : Bool :=
  xs.all fun entry => (find? ys entry.1).isSome

/-- Sets the value under a key: in place if the key is there, at the end if not. -/
def put (entries : List (Value × Value)) (key value : Value) : List (Value × Value) :=
  match entries with
  | [] => [(key, value)]
  | (k, v) :: rest => if sameKey k key then (k, value) :: rest else (k, v) :: put rest key value

def field? (entries : List (Value × Value)) (name : String) : Option Value :=
  find? entries (.text name)

/-- The outcome of comparing two scalars, or a scalar with a container. -/
def scalarEqual : Value → Value → Except Refusal Bool
  | .incomparable i r, .incomparable j _ => if i = j then .ok true else .error r
  | .incomparable _ r, _ => .error r
  | _, .incomparable _ r => .error r
  | .null, .null => .ok true
  | .bool a, .bool b => .ok (a == b)
  | .text s, .text t => .ok (s == t)
  | .bytes s, .bytes t => .ok (s == t)
  | .object i _ _, .object j _ _ => .ok (i == j)
  | .renderable i _, .renderable j _ => .ok (i == j)
  | x, y => .ok (sameNumber x y)

/-- The outcome of a comparison for the finding of changes: a refusal on grounds of
type or value counts as a change, any other one stands. -/
def settle : Except Refusal Bool → Except Refusal Bool
  | .error .runtime => .error .runtime
  | .error _ => .ok false
  | .ok b => .ok b

mutual

/-- Whether two values are unchanged from one another. -/
def equal : Value → Value → Except Refusal Bool
  | .map xs, other =>
    match other with
    | .map ys =>
      if xs.length = ys.length && keysWithin xs ys then equalEntries xs ys else .ok false
    | .list _ => .ok false
    | .tuple _ => .ok false
    | .bool _ => .ok false
    | other => settle (scalarEqual (.map []) other)
  | .list xs, other =>
    match other.items? with
    | some ys => if xs.length = ys.length then equalItems xs ys else .ok false
    | none =>
      if other.isContainer || other.isBool then .ok false else settle (scalarEqual (.list []) other)
  | .tuple xs, other =>
    match other.items? with
    | some ys => if xs.length = ys.length then equalItems xs ys else .ok false
    | none =>
      if other.isContainer || other.isBool then .ok false else settle (scalarEqual (.list []) other)
  | x, other => if x.isBool != other.isBool then .ok false else settle (scalarEqual x other)

def equalItems : List Value → List Value → Except Refusal Bool
  | x :: xs, y :: ys => do if ← equal x y then equalItems xs ys else return false
  | _, _ => .ok true

def equalEntries : List (Value × Value) → List (Value × Value) → Except Refusal Bool
  | [], _ => .ok true
  | (k, x) :: xs, ys =>
    match find? ys k with
    | some y => do if ← equal x y then equalEntries xs ys else return false
    | none => .ok false

end

end Value
end Permit
