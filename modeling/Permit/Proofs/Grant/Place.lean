import Permit.Proofs.Grant.Unmixed

namespace Permit

namespace PathSet

variable {S T : PathSet} {rest place : List String}

theorem through_mono (h : S ⊆ T) (key : String) : through S key ⊆ through T key := by
  rintro rest (inside | ⟨selector, inside⟩)
  · exact .inl (h inside)
  · exact .inr ⟨selector, h inside⟩

/-- What leads along a place is the end of a path, and the place is as long as its beginning. -/
theorem exists_of_mem_along (inside : rest ∈ along through S place) :
    ∃ start, start.length = place.length ∧ start ++ rest ∈ S := by
  induction place generalizing S with
  | nil => exact ⟨[], rfl, inside⟩
  | cons key place ih =>
    obtain ⟨start, long, inside⟩ := ih inside
    rcases inside with inside | ⟨_, inside⟩
    · exact ⟨key :: start, by simp [long], inside⟩
    · exact ⟨Path.wildcard :: start, by simp [long], inside⟩

/-- More paths ask for the same kind of grant, unless the fewer ones ask for a whole one. -/
theorem HasKind.eq_of_subset {kind kind' : GrantKind} (h : HasKind S kind) (h' : HasKind T kind')
    (subset : S ⊆ T) (parts : kind ≠ .whole) : kind' = kind := by
  cases kind with
  | whole => exact absurd rfl parts
  | fields =>
    have names : Names T := h.1.mono subset
    cases kind' with
    | fields => rfl
    | whole => exact absurd names h'.1
    | elements => exact absurd names h'.2
  | elements =>
    have selects : Selects T := h.1.mono subset
    cases kind' with
    | elements => rfl
    | whole => exact absurd selects h'.2
    | fields => exact absurd selects h'.2

end PathSet

namespace Grant

open PathSet

def at? (g : Grant) : List String → Option Grant
  | [] => some g
  | key :: place => (Keyed.find? g.children key).bind fun child => child.at? place

/-- Whatever a grant holds, another one holds too: a chain of keys that leads somewhere below the
first leads somewhere below the other, and to a grant of the same kind unless the first holds a
whole one there. -/
def Within (g other : Grant) : Prop :=
  ∀ place own, g.at? place = some own →
    ∃ twin, other.at? place = some twin ∧ (own.kind ≠ .whole → twin.kind = own.kind)

variable {S T : PathSet} {g own other : Grant} {key : String} {place : List String}

theorem at?_cons : g.at? (key :: place) = some own ↔
    ∃ child, Keyed.find? g.children key = some child ∧ child.at? place = some own := by
  rw [at?, Option.bind_eq_some_iff]

namespace Stands

theorem present (h : Stands through S g) (found : Keyed.find? g.children key = some own) :
    (PathSet.below S key).Nonempty := by
  obtain ⟨_, branches⟩ := stands_iff.mp h
  exact (branches.present key).mp (by rw [found]; rfl)

theorem child (h : Stands through S g) (found : Keyed.find? g.children key = some own) :
    Stands through (through S key) own := by
  obtain ⟨_, branches⟩ := stands_iff.mp h
  exact branches.stands key own found

theorem at? (h : Stands through S g) (held : g.at? place = some own) :
    Stands through (along through S place) own := by
  induction place generalizing S g with
  | nil =>
    cases held
    exact h
  | cons key place ih =>
    obtain ⟨child, found, held⟩ := at?_cons.mp held
    exact ih (h.child found) held

theorem nonempty_along (h : Stands through S g) (filled : S.Nonempty)
    (held : g.at? place = some own) : (along through S place).Nonempty := by
  induction place generalizing S g with
  | nil => exact filled
  | cons key place ih =>
    obtain ⟨child, found, held⟩ := at?_cons.mp held
    exact ih (h.child found) ((h.present found).mono below_subset_through) held

/-- **Fewer paths, a lesser grant.** -/
theorem within (h : Stands through S g) (h' : Stands through T other) (subset : S ⊆ T) :
    g.Within other := by
  intro place
  induction place generalizing S T g other with
  | nil =>
    intro own held
    cases held
    have kind := (stands_iff.mp h).1
    have kind' := (stands_iff.mp h').1
    exact ⟨other, rfl, kind.eq_of_subset kind' subset⟩
  | cons key place ih =>
    intro own held
    obtain ⟨child, found, held⟩ := at?_cons.mp held
    have there := (h.present found).mono (below_mono subset key)
    obtain ⟨_, branches⟩ := stands_iff.mp h'
    obtain ⟨child', found'⟩ := Option.isSome_iff_exists.mp ((branches.present key).mpr there)
    obtain ⟨twin, held', kinds⟩ :=
      ih (h.child found) (h'.child found') (through_mono subset key) own held
    exact ⟨twin, at?_cons.mpr ⟨child', found', held'⟩, kinds⟩

theorem children_eq_nil (h : Stands through S g) (whole : g.kind = .whole) : g.children = [] := by
  obtain ⟨kind, branches⟩ := stands_iff.mp h
  rw [whole] at kind
  cases children : g.children with
  | nil => rfl
  | cons entry rest =>
    have found : Keyed.find? g.children entry.1 = some entry.2 := by
      simp [children, Keyed.find?]
    rw [branches.absent (below_eq_empty_of_whole kind entry.1)] at found
    cases found

theorem children_ne_nil (h : Stands through S g) (parts : g.kind ≠ .whole) : g.children ≠ [] := by
  intro none
  obtain ⟨kind, branches⟩ := stands_iff.mp h
  have nothing (key : String) : PathSet.below S key = ∅ :=
    branches.rests_eq_empty (by rw [none]; rfl)
  have whole := hasKind_whole_of_below_eq_empty nothing
  exact parts (kind.eq_of_subset whole subset_rfl parts).symm

end Stands

end Grant
end Permit
