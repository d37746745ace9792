import Permit.Proofs.Grant.Shape

/-!
Sets of paths that agree about the shape of every value. Following such a set along a
place, its paths never go on with the name of a field and with a selector at once.

* `PathSet.along` is what is left of a set of paths at a place, `PathSet.Unmixed` says
  that it nowhere asks for two kinds of grant;
* `Unmixed.mono`: fewer paths, or paths that lead to fewer places, stay unmixed; so what is
  unmixed once the wildcards are spread was so before;
* `Grant.unmixed_of_stands`: a set that a grant stands for is unmixed.
-/
namespace Permit

namespace PathSet

def along (lead : PathSet → String → PathSet) : PathSet → List String → PathSet
  | S, [] => S
  | S, key :: place => along lead (lead S key) place

/-- At no place do some paths name a field and others select an element. -/
def Unmixed (lead : PathSet → String → PathSet) (S : PathSet) : Prop :=
  ∀ place, ¬ (Names (along lead S place) ∧ Selects (along lead S place))

variable {lead lead' : PathSet → String → PathSet} {S T : PathSet} {key : String}

theorem below_mono (h : S ⊆ T) (key : String) : below S key ⊆ below T key :=
  fun _ inside => h inside

theorem below_subset_through_of_subset (h : S ⊆ T) (key : String) :
    below S key ⊆ through T key := (below_mono h key).trans below_subset_through

theorem Names.mono (h : S ⊆ T) : Names S → Names T := by
  rintro ⟨segment, nonempty, field⟩
  exact ⟨segment, nonempty.mono (below_mono h segment), field⟩

theorem Selects.mono (h : S ⊆ T) : Selects S → Selects T := by
  rintro ⟨segment, nonempty, selector⟩
  exact ⟨segment, nonempty.mono (below_mono h segment), selector⟩

theorem not_names_empty : ¬ Names ∅ := by
  rintro ⟨segment, ⟨rest, inside⟩, _⟩
  exact inside

theorem through_empty : through ∅ key = ∅ := by
  ext rest
  simp [through]

theorem along_empty (place : List String) : along through ∅ place = ∅ := by
  induction place with
  | nil => rfl
  | cons key place ih => rw [along, through_empty, ih]

theorem along_mono (wider : ∀ {S T : PathSet}, S ⊆ T → ∀ key, lead S key ⊆ lead' T key)
    (h : S ⊆ T) (place : List String) : along lead S place ⊆ along lead' T place := by
  induction place generalizing S T with
  | nil => exact h
  | cons key place ih => exact ih (wider h key)

namespace Unmixed

theorem step (h : Unmixed lead S) (key : String) : Unmixed lead (lead S key) :=
  fun place => h (key :: place)

theorem mono (wider : ∀ {S T : PathSet}, S ⊆ T → ∀ key, lead S key ⊆ lead' T key)
    (subset : S ⊆ T) (h : Unmixed lead' T) : Unmixed lead S := by
  rintro place ⟨names, selects⟩
  have inside := along_mono wider subset place
  exact h place ⟨names.mono inside, selects.mono inside⟩

/-- What is unmixed with the wildcards spread is so without. -/
theorem before (h : Unmixed through S) : Unmixed below S :=
  h.mono below_subset_through_of_subset subset_rfl

theorem not_selects (h : Unmixed lead S) (names : Names S) : ¬ Selects S :=
  fun selects => h [] ⟨names, selects⟩

theorem not_names (h : Unmixed lead S) (selects : Selects S) : ¬ Names S :=
  fun names => h [] ⟨names, selects⟩

end Unmixed

theorem unmixed_empty : Unmixed through ∅ := by
  rintro place ⟨names, _⟩
  rw [along_empty] at names
  exact not_names_empty names

end PathSet

namespace Grant

open PathSet

variable {S : PathSet} {g : Grant}

/-- Of what leads through a segment, some is found under the segment itself or under `*`,
or there is nothing. -/
theorem through_cases {kind : GrantKind} {children : List (String × Grant)}
    (h : Stands through S (.node kind children)) (key : String) :
    (∃ k own, Keyed.find? children k = some own ∧ through S key = through S k) ∨
      through S key = ∅ := by
  obtain ⟨_, branches⟩ := stands_iff.mp h
  cases mine : Keyed.find? children key with
  | some own => exact .inl ⟨key, own, mine, rfl⟩
  | none =>
    have nothing : below S key = ∅ := branches.rests_eq_empty mine
    cases selects : Path.isSelector key with
    | false => exact .inr ((through_field selects).trans nothing)
    | true =>
      have only : through S key = through S Path.wildcard := by
        rw [through_selector selects, nothing, Set.union_empty, through_wildcard]
      cases every : Keyed.find? children Path.wildcard with
      | some own => exact .inl ⟨Path.wildcard, own, every, only⟩
      | none =>
        right
        rw [only, through_wildcard]
        exact branches.rests_eq_empty every

/-- The paths that a grant stands for agree about the shape of every value. -/
theorem unmixed_of_stands (h : Stands through S g) : Unmixed through S := by
  induction h with
  | @node S kind children hasKind nodup present stands ih =>
    intro place
    cases place with
    | nil =>
      rintro ⟨names, selects⟩
      cases kind with
      | whole => exact hasKind.1 names
      | fields => exact hasKind.2 selects
      | elements => exact hasKind.2 names
    | cons key place =>
      have whole : Stands through S (.node kind children) := .node hasKind nodup present stands
      rcases through_cases whole key with ⟨k, own, found, same⟩ | nothing
      · rw [along, same]
        exact ih k own found place
      · rw [along, nothing]
        exact unmixed_empty place

end Grant
end Permit
