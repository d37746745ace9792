import Permit.Value.Equality

namespace Permit.Value

/-- The elements of a value that can be gone through: the characters of a text, the
keys of a mapping, the numbers of bytes, the named fields of a model. -/
def elements? : Value → Option (List Value)
  | .list items => some items
  | .tuple items => some items
  | .map entries => some (entries.map (·.1))
  | .text s => some (s.toList.map fun c => .text c.toString)
  | .bytes b => some (b.map fun byte => .int byte.toNat)
  | .object _ .model fields => some (fields.map fun f => .tuple [.text f.1, f.2])
  | _ => none

mutual

/-- The type of the first part of a value that keeps it from being a key. -/
def unkeyable? : Value → Option String
  | .tuple items => unkeyableItem? items
  | .list items => some (Value.list items).typeName
  | .map entries => some (Value.map entries).typeName
  | .object identity .record fields => some (Value.object identity .record fields).typeName
  | .object identity .model fields => some (Value.object identity .model fields).typeName
  | .incomparable identity refusal => some (Value.incomparable identity refusal).typeName
  | _ => none

def unkeyableItem? : List Value → Option String
  | [] => none
  | v :: rest => match unkeyable? v with
    | some name => some name
    | none => unkeyableItem? rest

end

end Permit.Value
