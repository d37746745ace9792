import Permit.Grant.Compile
import Permit.Response
import Permit.Session.Basic
import Permit.Value.Iteration

namespace Permit.Session

structure Compiled where
  tree : GrantTree
  build : Nat

def pathTexts? (values : List Value) : Option (List String) := Constraint.texts? values

def compilerLog : String := "field_policy.compiler.rule_parser"

/-- The duration that is noted for a compilation: the clock is outside of the session. -/
def noDuration : Number.Binary64 := .zero

/-- Compiles a list of values and keeps the tree. -/
def build (values : List Value) : Action Compiled := do
  let s ← get
  set { s with cache := s.cache.miss }
  match compiled : GrantTree.compile s.settings.maxPathSegments values with
  | .error fault => do
    recordCompilation "error" noDuration
    throw (.path fault)
  | .ok tree => do
    recordCompilation "success" noDuration
    Action.log ⟨10, compilerLog,
      s!"Compiled {values.length} permitted paths into {tree.children.length} top-level rules",
      none⟩
    have kept : ∃ limit, GrantTree.compile limit ((GrantTree.textsOf values).map .text) = .ok tree :=
      ⟨_, GrantTree.map_textsOf compiled ▸ compiled⟩
    Action.step fun s =>
      (⟨tree, s.cache.builds⟩,
        { s with cache := s.cache.store (GrantTree.textsOf values) tree kept })

/-- The tree of a list of values: one that is kept, or a new one. -/
def compileItems (values : List Value) : Action Compiled := do
  match (pathTexts? values).bind (← get).cache.find? with
  | some entry =>
    modify fun s => { s with cache := s.cache.use entry }
    return ⟨entry.tree, entry.build⟩
  | none => build values

def pathsExpectation : String := "compile_path_rules expects a sequence of path strings"

/-- The elements of a value that lists paths; a text does not. -/
def pathItems (paths : Value) : Except Fault (List Value) :=
  match paths with
  | .text s => .error (Fault.ofArgument pathsExpectation (.text s))
  | v =>
    match v.elements? with
    | some items => .ok items
    | none => .error (Fault.ofArgument pathsExpectation v)

/-- The type of the first item that can be no part of a key. With room for no tree there are no
keys, and any item will do. -/
def unkeyable? (capacity : Nat) (items : List Value) : Option String :=
  if capacity = 0 then none else Value.unkeyableItem? items

def compile (paths : Value) : Action Compiled := do
  let items ← Action.lift (pathItems paths)
  match unkeyable? (← get).cache.capacity items with
  | some typeName => throw (.unkeyable typeName)
  | none => compileItems items

def projectElements (tree : GrantTree) (values : Value) : Except Fault Value :=
  match values.elements? with
  | some items => .ok (.list (tree.projectAll items))
  | none => .error (.notIterable values.typeName)

/-- The permitted part of the content of a response. Without content nothing is compiled. -/
def shapeResponse (paths content : Value) : Action Value := do
  match content with
  | .null => return .null
  | content => return Response.shape (← compile paths).tree content

end Permit.Session
