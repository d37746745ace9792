import Permit.Number.Binary64

/-!
The dynamic values that requests, responses and rule definitions are made of.

Mappings keep their entries in insertion order and may have keys other than text.
Besides plain data there are objects: each has an identity, is equal to itself
only, and is a scalar to everything that walks a value.

* `Value.kind` sorts a value into the four shapes that every walk distinguishes;
* `Value.isTrue` is the truth of a value where a condition is expected.
-/
namespace Permit

open Number (Binary64)

inductive ObjectKind where
  /-- Converts to plain data together with the records nested in it. -/
  | record
  /-- Converts to plain data together with the records and models nested in it. -/
  | model
  | bare
deriving Repr, DecidableEq, Inhabited

/-- How an object that cannot be compared refuses a comparison. -/
inductive Refusal where
  | type
  | value
  | runtime
deriving Repr, DecidableEq, Inhabited

inductive Value where
  | null
  | bool (b : Bool)
  | int (n : Int)
  | float (x : Binary64)
  | text (s : String)
  | bytes (b : List UInt8)
  | list (items : List Value)
  | tuple (items : List Value)
  | map (entries : List (Value × Value))
  | object (identity : Nat) (kind : ObjectKind) (fields : List (String × Value))
  | renderable (identity : Nat) (plain : Value)
  | incomparable (identity : Nat) (refusal : Refusal)
deriving Repr, Inhabited

/-- The shapes that every walk over values distinguishes. -/
inductive Kind where
  | mapping
  | sequence
  | scalar
  | null
deriving Repr, DecidableEq, Inhabited

def Kind.name : Kind → String
  | .mapping => "mapping"
  | .sequence => "sequence"
  | .scalar => "scalar"
  | .null => "null"

/-- Whether values of this shape hold other values. -/
def Kind.isContainer : Kind → Bool
  | .mapping => true
  | .sequence => true
  | _ => false

namespace Value

/-- The shape of a value. Text and bytes are scalars. -/
def kind : Value → Kind
  | .null => .null
  | .map _ => .mapping
  | .list _ => .sequence
  | .tuple _ => .sequence
  | _ => .scalar

def isContainer (v : Value) : Bool := v.kind.isContainer

theorem other_or_text (v : Value) : (∀ s, v ≠ .text s) ∨ ∃ s, v = .text s := by
  cases v with
  | text s => exact .inr ⟨s, rfl⟩
  | _ => exact .inl nofun

def items? : Value → Option (List Value)
  | .list items => some items
  | .tuple items => some items
  | _ => none

def entries? : Value → Option (List (Value × Value))
  | .map entries => some entries
  | _ => none

def isBool : Value → Bool
  | .bool _ => true
  | _ => false

/-- The name of a value's type as messages give it. -/
def typeName : Value → String
  | .null => "NoneType"
  | .bool _ => "bool"
  | .int _ => "int"
  | .float _ => "float"
  | .text _ => "str"
  | .bytes _ => "bytes"
  | .list _ => "list"
  | .tuple _ => "tuple"
  | .map _ => "dict"
  | .object _ .record _ => "Record"
  | .object _ .model _ => "Model"
  | .object _ .bare _ => "Object"
  | .renderable .. => "Renderable"
  | .incomparable .. => "Incomparable"

/-- Whether a value holds where a condition is expected: zero and everything empty
does not, an object does. -/
def isTrue : Value → Bool
  | .null => false
  | .bool b => b
  | .int n => n != 0
  | .float x => !x.isZero
  | .text s => s != ""
  | .bytes b => !b.isEmpty
  | .list items => !items.isEmpty
  | .tuple items => !items.isEmpty
  | .map entries => !entries.isEmpty
  | _ => true

mutual

def height : Value → Nat
  | .list items => itemsHeight items + 1
  | .tuple items => itemsHeight items + 1
  | .map entries => entriesHeight entries + 1
  | _ => 0

def itemsHeight : List Value → Nat
  | [] => 0
  | v :: rest => max v.height (itemsHeight rest)

def entriesHeight : List (Value × Value) → Nat
  | [] => 0
  | (_, v) :: rest => max v.height (entriesHeight rest)

end

def record (fields : List (String × Value)) : Value :=
  .map (fields.map fun f => (.text f.1, f.2))

def texts (items : List String) : Value := .list (items.map .text)

end Value
end Permit
