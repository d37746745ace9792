import Permit.Grant.Wildcard

namespace Permit.GrantTree

def addPath (limit : Int) (children : List (String × Grant)) (path : Value) :
    Except PathFault (List (String × Grant)) := do
  let segments ← Path.read limit path
  Grant.insert (Path.ofSegments segments) children [] segments

def textsOf (values : List Value) : List String :=
  values.filterMap fun
    | .text s => some s
    | _ => none

/-- The tree of grants of a list of paths, each of at most `limit` segments. -/
def compile (limit : Int) (paths : List Value) : Except PathFault GrantTree := do
  let children ← paths.foldlM (addPath limit) []
  return ⟨.node .fields (← Grant.close children), textsOf paths⟩

theorem text_of_addPath {limit : Int} {children out : List (String × Grant)} {path : Value}
    (h : addPath limit children path = .ok out) : ∃ s, path = .text s := by
  cases path with
  | text s => exact ⟨s, rfl⟩
  | _ => cases h

/-- A list of values that compiles is a list of texts. -/
theorem map_textsOf {limit : Int} {paths : List Value} {tree : GrantTree}
    (h : compile limit paths = .ok tree) : (textsOf paths).map Value.text = paths := by
  have texts : ∀ (rest : List Value) (children out : List (String × Grant)),
      rest.foldlM (addPath limit) children = .ok out → (textsOf rest).map Value.text = rest := by
    intro rest
    induction rest with
    | nil => intro _ _ _; rfl
    | cons path rest ih =>
      intro children out h
      rw [List.foldlM_cons] at h
      cases added : addPath limit children path with
      | error fault => rw [added] at h; cases h
      | ok next =>
        rw [added] at h
        obtain ⟨s, rfl⟩ := text_of_addPath added
        exact congrArg (Value.text s :: ·) (ih next out h)
  unfold compile at h
  cases folded : paths.foldlM (addPath limit) [] with
  | error fault => rw [folded] at h; cases h
  | ok children => exact texts paths [] children folded

end Permit.GrantTree
