import Permit.Projection
import Permit.Proofs.Grant.Compilation

/-!
What a list of paths shows of a value, said of the paths alone: no tree, no merging and
no order of precedence. Following a value into one of its parts keeps the rests of the
paths that lead there; a part that no path leads to is not shown, and where all paths
have ended the value is shown as it is.

* `Shown.value` is what is shown below the top, `Shown.whole` what is shown of a request;
* `Grant.project_shown`: a grant that stands for paths keeps what the paths show;
* `GrantTree.project_map`, `GrantTree.whole_shown`: so does the tree that they compile to.
-/
namespace Permit

namespace Shown

/-- The rests of the paths that begin with a key. -/
def under (paths : List (List String)) (key : String) : List (List String) :=
  paths.filterMap fun
    | first :: rest => if first = key then some rest else none
    | [] => none

/-- The rests of the paths that begin with the numeral of a position or with `*`. -/
def atPosition (paths : List (List String)) (index : Nat) : List (List String) :=
  paths.filterMap fun
    | first :: rest =>
      if first = Number.natText index ∨ first = Path.wildcard then some rest else none
    | [] => none

/-- Whether some path goes on with the name of a field. -/
def names (paths : List (List String)) : Bool :=
  paths.any fun path => path.head?.any (!Path.isSelector ·)

/-- Whether some path goes on with a selector. -/
def selects (paths : List (List String)) : Bool :=
  paths.any fun path => path.head?.any Path.isSelector

mutual

/-- What paths show of a value: a mapping if they go on with names of fields, a sequence
if they go on with selectors, and any value as it is if they have all ended. -/
def value (paths : List (List String)) : Value → Option Value
  | .map entries =>
    if names paths then some (.map (ofEntries paths entries))
    else if selects paths then none
    else some (.map entries)
  | .list items =>
    if names paths then none
    else if selects paths then some (.list (ofItems paths 0 items))
    else some (.list items)
  | .tuple items =>
    if names paths then none
    else if selects paths then some (.list (ofItems paths 0 items))
    else some (.tuple items)
  | v => if names paths || selects paths then none else some v

/-- The entries under text keys that some path leads to, in their order, each with what
is shown of its value; an entry of which nothing is shown is left out. -/
def ofEntries (paths : List (List String)) : List (Value × Value) → List (Value × Value)
  | [] => []
  | (key, v) :: rest =>
    match key with
    | .text name =>
      match if (under paths name).isEmpty then none else value (under paths name) v with
      | some kept => (key, kept) :: ofEntries paths rest
      | none => ofEntries paths rest
    | _ => ofEntries paths rest

/-- The elements from a position on, up to the first one that no path leads to; an
element of which nothing is shown leaves an empty mapping in its place. -/
def ofItems (paths : List (List String)) (index : Nat) : List Value → List Value
  | [] => []
  | v :: rest =>
    if (atPosition paths index).isEmpty then []
    else (value (atPosition paths index) v).getD (.map []) :: ofItems paths (index + 1) rest

end

theorem ofEntries_text (paths : List (List String)) (name : String) (v : Value)
    (rest : List (Value × Value)) :
    ofEntries paths ((.text name, v) :: rest) =
      ((if (under paths name).isEmpty then none else value (under paths name) v).map
        (Value.text name, ·)).toList ++ ofEntries paths rest := by
  simp only [ofEntries]
  cases if (under paths name).isEmpty then none else value (under paths name) v <;> rfl

theorem ofEntries_other (paths : List (List String)) {key : Value}
    (other : ∀ name, key ≠ .text name) (v : Value) (rest : List (Value × Value)) :
    ofEntries paths ((key, v) :: rest) = ofEntries paths rest := by
  cases key with
  | text name => exact absurd rfl (other name)
  | _ => rfl

theorem ofEntries_nil (entries : List (Value × Value)) : ofEntries [] entries = [] := by
  induction entries with
  | nil => rfl
  | cons entry rest ih =>
    obtain ⟨key, v⟩ := entry
    cases key <;> simp [ofEntries, under, ih]

/-- What paths show of a whole value: without any paths an empty mapping. -/
def whole (paths : List (List String)) (v : Value) : Option Value :=
  if paths.isEmpty then some (.map []) else value paths v

def set (paths : List (List String)) : PathSet := {path | path ∈ paths}

open PathSet

variable {paths : List (List String)}

theorem mem_under {key : String} {rest : List String} :
    rest ∈ under paths key ↔ key :: rest ∈ paths := by
  rw [under, List.mem_filterMap]
  constructor
  · rintro ⟨path, inside, step⟩
    cases path with
    | nil => cases step
    | cons first more =>
      by_cases same : first = key
      · simp only [same, if_true, Option.some.injEq] at step
        rw [← same, ← step]
        exact same ▸ inside
      · simp [same] at step
  · intro inside
    exact ⟨key :: rest, inside, by simp⟩

theorem set_under (key : String) : set (under paths key) = below (set paths) key := by
  ext rest
  exact mem_under

theorem mem_atPosition {index : Nat} {rest : List String} :
    rest ∈ atPosition paths index ↔
      ∃ first, (first = Number.natText index ∨ first = Path.wildcard) ∧ first :: rest ∈ paths := by
  rw [atPosition, List.mem_filterMap]
  constructor
  · rintro ⟨path, inside, step⟩
    cases path with
    | nil => cases step
    | cons first more =>
      by_cases lead : first = Number.natText index ∨ first = Path.wildcard
      · simp only [lead, if_true, Option.some.injEq] at step
        exact ⟨first, lead, step ▸ inside⟩
      · simp [lead] at step
  · rintro ⟨first, lead, inside⟩
    exact ⟨first :: rest, inside, by simp [lead]⟩

theorem set_atPosition (index : Nat) :
    set (atPosition paths index) = through (set paths) (Number.natText index) := by
  ext rest
  change rest ∈ atPosition paths index ↔ _
  rw [mem_atPosition]
  constructor
  · rintro ⟨first, rfl | rfl, inside⟩
    · exact .inl inside
    · exact .inr ⟨Path.isSelector_natText index, inside⟩
  · rintro (inside | ⟨_, inside⟩)
    · exact ⟨_, .inl rfl, inside⟩
    · exact ⟨_, .inr rfl, inside⟩

theorem isEmpty_iff : paths.isEmpty = true ↔ ¬ (set paths).Nonempty := by
  cases paths with
  | nil => simp [set]
  | cons path rest => simp [set, Set.Nonempty]

theorem names_iff : names paths = true ↔ Names (set paths) := by
  simp only [names, List.any_eq_true, Option.any_eq_true, Bool.not_eq_true']
  constructor
  · rintro ⟨path, inside, first, head, field⟩
    obtain ⟨rest, rfl⟩ := List.head?_eq_some_iff.mp head
    exact ⟨first, ⟨rest, inside⟩, field⟩
  · rintro ⟨first, ⟨rest, inside⟩, field⟩
    exact ⟨first :: rest, inside, first, rfl, field⟩

theorem selects_iff : selects paths = true ↔ Selects (set paths) := by
  simp only [selects, List.any_eq_true, Option.any_eq_true]
  constructor
  · rintro ⟨path, inside, first, head, selector⟩
    obtain ⟨rest, rfl⟩ := List.head?_eq_some_iff.mp head
    exact ⟨first, ⟨rest, inside⟩, selector⟩
  · rintro ⟨first, ⟨rest, inside⟩, selector⟩
    exact ⟨first :: rest, inside, first, rfl, selector⟩

/-- What the kind of a grant says of the paths it stands for. -/
theorem kind_tests {kind : GrantKind} (h : HasKind (set paths) kind) :
    names paths = decide (kind = .fields) ∧ selects paths = decide (kind = .elements) := by
  cases kind <;> obtain ⟨pos, neg⟩ := h <;>
    simp only [← names_iff, ← selects_iff, Bool.not_eq_true] at pos neg <;>
    simp [pos, neg]

end Shown

namespace Grant

open PathSet

/-- No path has two selectors next to each other. -/
def Flat (paths : List (List String)) : Prop :=
  ∀ path ∈ paths, Path.hasNestedSelectors path = false

theorem Flat.under {paths : List (List String)} (h : Flat paths) (key : String) :
    Flat (Shown.under paths key) := by
  intro rest inside
  exact flat_tail (h _ (Shown.mem_under.mp inside))

theorem Flat.atPosition {paths : List (List String)} (h : Flat paths) (index : Nat) :
    Flat (Shown.atPosition paths index) ∧ ¬ Selects (Shown.set (Shown.atPosition paths index)) := by
  have lead {rest : List String} (inside : rest ∈ Shown.atPosition paths index) :
      ∃ selector, Path.isSelector selector = true ∧ selector :: rest ∈ paths := by
    have inside : rest ∈ Shown.set (Shown.atPosition paths index) := inside
    rw [Shown.set_atPosition] at inside
    rcases inside with inside | ⟨_, inside⟩
    · exact ⟨_, Path.isSelector_natText index, inside⟩
    · exact ⟨_, Path.isSelector_wildcard, inside⟩
  constructor
  · intro rest inside
    obtain ⟨selector, _, path⟩ := lead inside
    exact flat_tail (h _ path)
  · rintro ⟨next, ⟨rest, inside⟩, nested⟩
    obtain ⟨selector, first, path⟩ := lead inside
    have flat := h _ path
    simp [Path.hasNestedSelectors, first, nested] at flat

mutual

theorem project_shown : ∀ {g : Grant} {paths : List (List String)} (v : Value),
    Stands through (Shown.set paths) g → Flat paths → g.project v = Shown.value paths v
  | g, paths, .map entries, h, flat => by
    obtain ⟨names, selects⟩ := Shown.kind_tests (stands_iff.mp h).1
    cases kind : g.kind with
    | fields =>
      simp only [project, Shown.value, names, kind,
        projectEntries_shown entries (fields_branches h kind) flat, decide_true, if_true]
    | _ => simp [project, Shown.value, names, selects, kind]
  | g, paths, .list items, h, flat => by
    obtain ⟨names, selects⟩ := Shown.kind_tests (stands_iff.mp h).1
    cases kind : g.kind with
    | elements =>
      simp [project, Shown.value, names, selects, kind, elements_children h kind,
        projectItems_shown items h flat]
    | _ => simp [project, Shown.value, names, selects, kind]
  | g, paths, .tuple items, h, flat => by
    obtain ⟨names, selects⟩ := Shown.kind_tests (stands_iff.mp h).1
    cases kind : g.kind with
    | elements =>
      simp [project, Shown.value, names, selects, kind, elements_children h kind,
        projectItems_shown items h flat]
    | _ => simp [project, Shown.value, names, selects, kind]
  | g, paths, .null, h, _ | g, paths, .bool _, h, _ | g, paths, .int _, h, _
  | g, paths, .float _, h, _ | g, paths, .text _, h, _ | g, paths, .bytes _, h, _
  | g, paths, .object .., h, _ | g, paths, .renderable .., h, _
  | g, paths, .incomparable .., h, _ => by
    obtain ⟨names, selects⟩ := Shown.kind_tests (stands_iff.mp h).1
    cases kind : g.kind <;> simp [project, Shown.value, names, selects, kind]

theorem projectEntries_shown : ∀ {children : List (String × Grant)} {paths : List (List String)}
    (entries : List (Value × Value)),
    Branches through (below (Shown.set paths)) (below (Shown.set paths)) children → Flat paths →
    projectEntries children entries = Shown.ofEntries paths entries
  | _, _, [], _, _ => rfl
  | children, paths, (key, v) :: rest, h, flat => by
    have others := projectEntries_shown rest h flat
    rcases key.other_or_text with other | ⟨name, rfl⟩
    · rw [projectEntries_other children other, Shown.ofEntries_other paths other, others]
    · rw [projectEntries_text, Shown.ofEntries_text, others]
      cases found : Keyed.find? children name with
      | none =>
        have empty : (Shown.under paths name).isEmpty = true := by
          rw [Shown.isEmpty_iff, Shown.set_under, h.rests_eq_empty found]
          exact Set.not_nonempty_empty
        simp [empty]
      | some g =>
        have nonempty : (Shown.under paths name).isEmpty = false := by
          rw [← Bool.not_eq_true, Shown.isEmpty_iff, not_not, Shown.set_under]
          exact (h.present name).mp (by rw [found]; rfl)
        have stands : Stands through (Shown.set (Shown.under paths name)) g := by
          rw [Shown.set_under]
          exact h.stands _ _ found
        have own := project_shown v stands (flat.under name)
        simp [nonempty, own]

theorem projectItems_shown : ∀ {g : Grant} {paths : List (List String)} {index : Nat}
    (items : List Value), Stands through (Shown.set paths) g → Flat paths →
    projectItems g index items = Shown.ofItems paths index items
  | _, _, _, [], _, _ => rfl
  | g, paths, index, v :: rest, h, flat => by
    cases found : g.element? index with
    | none =>
      have empty : (Shown.atPosition paths index).isEmpty = true := by
        rw [Shown.isEmpty_iff, Shown.set_atPosition, through_eq_empty h found]
        exact Set.not_nonempty_empty
      simp [projectItems, Shown.ofItems, found, empty]
    | some own =>
      have some : (Shown.atPosition paths index).isEmpty = false := by
        rw [← Bool.not_eq_true, Shown.isEmpty_iff, not_not, Shown.set_atPosition]
        exact (element_stands h found).2
      have stands : Stands through (Shown.set (Shown.atPosition paths index)) own := by
        rw [Shown.set_atPosition]
        exact (element_stands h found).1
      obtain ⟨flat', free⟩ := flat.atPosition index
      have kept := project_shown v stands flat'
      have others := @projectItems_shown g paths (index + 1) rest h flat
      have hollow : own.placeholder = .map [] := by
        have kind : own.kind ≠ .elements := by
          intro kind
          exact free (kind ▸ (stands_iff.mp stands).1).1
        simp [placeholder, kind]
      simp [projectItems, Shown.ofItems, found, some, kept, others, hollow]

end

end Grant

namespace GrantTree

open PathSet Grant

theorem names_of_compile {limit : Int} {texts : List String} {tree : GrantTree}
    (h : compile limit (texts.map Value.text) = .ok tree) (some : texts ≠ []) :
    Shown.names (texts.map Path.segments) = true := by
  obtain ⟨text, rest, rfl⟩ := List.exists_cons_of_ne_nil some
  have formed := (compile_eq_ok_iff.mp h).1 text (List.mem_cons_self ..)
  cases parts : Path.segments text with
  | nil => exact absurd parts (Path.segments_ne_nil text)
  | cons first more =>
    have named := formed.named
    rw [parts] at named
    simp only [List.head?_cons, Option.any_some] at named
    simp [Shown.names, parts, named]

/-- **Projection.** Of a mapping, the projection by the tree that paths compile to keeps
what the paths show of it. -/
theorem project_map {limit : Int} {texts : List String} {tree : GrantTree}
    (h : compile limit (texts.map Value.text) = .ok tree) (entries : List (Value × Value)) :
    tree.project (.map entries) =
      .map (Shown.ofEntries (texts.map Path.segments) entries) := by
  have flat : Flat (texts.map Path.segments) := by
    intro parts inside
    obtain ⟨text, given, rfl⟩ := List.mem_map.mp inside
    exact ((compile_eq_ok_iff.mp h).1 text given).flat
  rw [project, projectEntries_shown entries (compile_branches h) flat]

theorem whole_shown {limit : Int} {texts : List String} {tree : GrantTree}
    (h : compile limit (texts.map Value.text) = .ok tree) (entries : List (Value × Value)) :
    Shown.whole (texts.map Path.segments) (.map entries) = some (tree.project (.map entries)) := by
  rw [project_map h]
  by_cases some : texts = []
  · subst some
    rw [List.map_nil, Shown.ofEntries_nil]
    rfl
  · have nonempty : (texts.map Path.segments).isEmpty = false := by simpa using some
    simp [Shown.whole, nonempty, Shown.value, names_of_compile h some]

end GrantTree
end Permit
