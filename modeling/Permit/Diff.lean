import Permit.Keyed
import Permit.Value.Equality
import Permit.Value.Quoted

/-!
The changes that turn one value into another. Two containers are walked together,
key by key, so that only what differs is listed; below a limit of depth a differing
part is listed as one change.

A container of either shape is seen as entries with text keys: the keys of a mapping
written as text, the positions of a sequence as numerals.

* `Diff.edits` lists the changes by position, a list of keys;
* `Diff.between` lists them by dotted path. Positions that share a dotted path share
  an entry, which then holds the last change.
-/
namespace Permit

inductive Change where
  | removed (old : Value)
  | added (new : Value)
  | replaced (old new : Value)
deriving Repr, Inhabited

def Change.toValue : Change → Value
  | .removed old => .record [("from", old)]
  | .added new => .record [("to", new)]
  | .replaced old new => .record [("from", old), ("to", new)]

inductive DiffFault where
  | numeral (fault : Number.NumeralFault)
  | refused (refusal : Refusal)
deriving Repr

structure Edit where
  place : List String
  change : Change
deriving Repr, Inhabited

def Edit.path (e : Edit) : String := ".".intercalate e.place

namespace Diff

/-- Keys written as text. Keys with the same text become one entry, which stands
where the first of them stood and holds the value of the last. -/
def textKeys (entries : List (Value × Value)) :
    Except Number.NumeralFault (List (String × Value)) :=
  entries.foldlM (fun seen (key, v) => do return Keyed.put seen (← key.display) v) []

def positions (index : Nat) : List Value → List (String × Value)
  | [] => []
  | v :: rest => (Number.natText index, v) :: positions (index + 1) rest

/-- The entries of a container with text keys. -/
def view : Value → Except Number.NumeralFault (List (String × Value))
  | .map entries => textKeys entries
  | .list items => .ok (positions 0 items)
  | .tuple items => .ok (positions 0 items)
  | _ => .ok []

def viewed (v : Value) : Except DiffFault (List (String × Value)) :=
  (view v).mapError .numeral

def unchanged (old new : Value) : Except DiffFault Bool :=
  (old.equal new).mapError .refused

/-- What is present on the first side only. -/
def removals (place : List String) (old new : List (String × Value)) : List Edit :=
  old.filterMap fun (key, v) =>
    if (Keyed.find? new key).isSome then none else some ⟨place ++ [key], .removed v⟩

/-- The changes between two containers at a depth. Differing containers are walked as
long as the depth is below the limit; `fuel` bounds the levels that there are. -/
def walk (limit : Int) (fuel : Nat) (place : List String) (depth : Int) (old new : Value) :
    Except DiffFault (List Edit) := do
  let before ← viewed old
  let after ← viewed new
  let changed ← after.mapM fun (key, v) => do
    let here := place ++ [key]
    match Keyed.find? before key with
    | none => return [⟨here, .added v⟩]
    | some was =>
      if ← unchanged was v then return []
      else if was.isContainer && v.isContainer && depth < limit then
        match fuel with
        | 0 => return [⟨here, .replaced was v⟩]
        | fuel + 1 => walk limit fuel here (depth + 1) was v
      else return [⟨here, .replaced was v⟩]
  return removals place before after ++ changed.flatten

/-- The path listed when two values differ that are not both containers. -/
def rootPath : String := "$"

/-- The changes between two values, by position. -/
def edits (limit : Int) (old new : Value) : Except DiffFault (List Edit) := do
  if ← unchanged old new then return []
  else if old.isContainer && new.isContainer then walk limit new.height [] 1 old new
  else return [⟨[rootPath], .replaced old new⟩]

/-- Changes by dotted path; of several with one path the last stands. -/
def collect (edits : List Edit) : List (String × Change) :=
  Keyed.ofList (edits.map fun e => (e.path, e.change))

/-- The changes between two values, by dotted path. -/
def between (limit : Int) (old new : Value) : Except DiffFault (List (String × Change)) :=
  (edits limit old new).map collect

end Diff
end Permit
