import Mathlib.Data.Set.Insert
import Mathlib.Logic.Function.Basic
import Permit.Grant.Insert
import Permit.Proofs.Outcome
import Permit.Proofs.Path.Segments

/-!
Trees of grants and the sets of paths they stand for. A set of paths decides the kind
of a grant, by what its paths go on with, and the keys of its children; below a child
stands the set of the rests that lead there. Which rests lead to a child depends on
whether the wildcards have been spread:

* `below`: before, a rest leads to the child of its own segment only;
* `through`: after, what goes through every element leads to each single one as well.

`Grant.Stands` takes that choice as a parameter, so that both are one relation. The
shorter paths of a set do not matter where longer ones begin with them: `stands_congr`.
-/
namespace Permit

abbrev PathSet := Set (List String)

namespace PathSet

/-- The rests of the paths that begin with a segment. -/
def below (S : PathSet) (segment : String) : PathSet := {rest | segment :: rest ∈ S}

/-- The rests of the paths that lead through a segment: a path through every element
leads through each single one. -/
def through (S : PathSet) (segment : String) : PathSet :=
  {rest | segment :: rest ∈ S ∨ (Path.isSelector segment = true ∧ Path.wildcard :: rest ∈ S)}

/-- Some path goes on with the name of a field. -/
def Names (S : PathSet) : Prop :=
  ∃ segment, (below S segment).Nonempty ∧ Path.isSelector segment = false

/-- Some path goes on with a selector. -/
def Selects (S : PathSet) : Prop :=
  ∃ segment, (below S segment).Nonempty ∧ Path.isSelector segment = true

def HasKind (S : PathSet) : GrantKind → Prop
  | .whole => ¬ Names S ∧ ¬ Selects S
  | .fields => Names S ∧ ¬ Selects S
  | .elements => Selects S ∧ ¬ Names S

variable {S T : PathSet} {segment : String}

theorem below_subset_through : below S segment ⊆ through S segment := fun _ h => Or.inl h

theorem below_union : below (S ∪ T) segment = below S segment ∪ below T segment := rfl

theorem below_singleton_self (rest : List String) : below {segment :: rest} segment = {rest} := by
  ext p
  simp [below]

theorem below_singleton_other {other : String} (h : other ≠ segment) (rest : List String) :
    below {segment :: rest} other = ∅ := by
  ext p
  simp [below, h]

theorem below_singleton_nil : below {[]} segment = ∅ := by
  ext p
  simp [below]

theorem through_field (h : Path.isSelector segment = false) :
    through S segment = below S segment := by
  ext p
  simp [through, below, h]

theorem through_selector (h : Path.isSelector segment = true) :
    through S segment = below S Path.wildcard ∪ below S segment := by
  ext p
  simp [through, below, h, or_comm]

theorem through_wildcard : through S Path.wildcard = below S Path.wildcard := by
  rw [through_selector Path.isSelector_wildcard, Set.union_self]

theorem names_union : Names (S ∪ T) ↔ Names S ∨ Names T := by
  simp only [Names, below_union, Set.union_nonempty, or_and_right, exists_or]

theorem selects_union : Selects (S ∪ T) ↔ Selects S ∨ Selects T := by
  simp only [Selects, below_union, Set.union_nonempty, or_and_right, exists_or]

theorem hasKind_congr {kind : GrantKind} (same : ∀ k, below S k = below T k) :
    HasKind S kind ↔ HasKind T kind := by
  cases kind <;> simp only [HasKind, Names, Selects, same]

/-- Nothing lies below a set of paths that asks for a whole grant. -/
theorem below_eq_empty_of_whole (h : HasKind S .whole) (k : String) : below S k = ∅ := by
  rw [Set.eq_empty_iff_forall_notMem]
  intro rest inside
  cases selects : Path.isSelector k with
  | false => exact h.1 ⟨k, ⟨rest, inside⟩, selects⟩
  | true => exact h.2 ⟨k, ⟨rest, inside⟩, selects⟩

theorem hasKind_whole_of_below_eq_empty (h : ∀ k, below S k = ∅) : HasKind S .whole := by
  constructor <;>
  · rintro ⟨k, nonempty, _⟩
    rw [h k] at nonempty
    exact Set.not_nonempty_empty nonempty

end PathSet

namespace Grant

open PathSet

/-- A grant stands for a set of paths: its kind is the one the set asks for, its children
are the segments the paths go on with, and each child stands for the rests that lead
to it. -/
inductive Stands (lead : PathSet → String → PathSet) : PathSet → Grant → Prop where
  | node {S : PathSet} {kind : GrantKind} {children : List (String × Grant)} :
      HasKind S kind → (Keyed.keys children).Nodup →
      (∀ k, (Keyed.find? children k).isSome ↔ (below S k).Nonempty) →
      (∀ k g, Keyed.find? children k = some g → Stands lead (lead S k) g) →
      Stands lead S (.node kind children)

/-- Children are those of the segments under which `rests` is not empty, and each stands
for what `reach` gives for its segment. -/
structure Branches (lead : PathSet → String → PathSet) (rests reach : String → PathSet)
    (children : List (String × Grant)) : Prop where
  nodup : (Keyed.keys children).Nodup
  present : ∀ k, (Keyed.find? children k).isSome ↔ (rests k).Nonempty
  stands : ∀ k g, Keyed.find? children k = some g → Stands lead (reach k) g

variable {lead : PathSet → String → PathSet} {S T : PathSet} {g : Grant}
  {rests reach : String → PathSet} {children : List (String × Grant)}

theorem stands_iff :
    Stands lead S g ↔ HasKind S g.kind ∧ Branches lead (below S) (lead S) g.children := by
  constructor
  · rintro ⟨kind, nodup, present, stands⟩
    exact ⟨kind, nodup, present, stands⟩
  · obtain ⟨kind, children⟩ := g
    rintro ⟨hkind, branches⟩
    exact .node hkind branches.nodup branches.present branches.stands

/-- Only what the paths of a set go on with matters. -/
theorem stands_congr (h : Stands below S g) (same : ∀ k, below S k = below T k) :
    Stands below T g := by
  obtain ⟨kind, branches⟩ := stands_iff.mp h
  rw [stands_iff, ← hasKind_congr same, ← funext same]
  exact ⟨kind, branches⟩

theorem stands_whole (h : ∀ k, below S k = ∅) : Stands below S whole := by
  refine .node (hasKind_whole_of_below_eq_empty h) List.nodup_nil ?_ ?_
  · intro k
    simp [Keyed.find?, h k]
  · intro k g found
    cases found

namespace Branches

theorem absent (h : Branches lead rests reach children) {k : String} (empty : rests k = ∅) :
    Keyed.find? children k = none := by
  rw [← Option.not_isSome_iff_eq_none, h.present k, empty]
  exact Set.not_nonempty_empty

theorem rests_eq_empty (h : Branches lead rests reach children) {k : String}
    (absent : Keyed.find? children k = none) : rests k = ∅ := by
  rw [← Set.not_nonempty_iff_eq_empty, ← h.present k, absent]
  exact Bool.false_ne_true

/-- Children set under one key, with what stands below every other key unchanged. -/
theorem put (h : Branches lead rests reach children) {k : String} {P Q : PathSet}
    (nonempty : P.Nonempty) (stands : Stands lead Q g) :
    Branches lead (Function.update rests k P) (Function.update reach k Q)
      (Keyed.put children k g) := by
  refine ⟨Keyed.nodup_keys_put _ _ _ h.nodup, ?_, ?_⟩
  · intro j
    by_cases same : j = k
    · subst same
      simp [Keyed.find?_put, nonempty]
    · simp [Keyed.find?_put, Ne.symm same, Function.update_of_ne same, h.present j]
  · intro j own found
    by_cases same : j = k
    · subst same
      rw [Keyed.find?_put_self, Option.some.injEq] at found
      rw [Function.update_self, ← found]
      exact stands
    · rw [Keyed.find?_put_other _ _ _ _ same] at found
      rw [Function.update_of_ne same]
      exact h.stands j own found

theorem tail {k : String} (h : Branches lead rests reach ((k, g) :: children)) :
    Branches lead (Function.update rests k ∅) (Function.update reach k ∅) children := by
  have parts := List.nodup_cons.mp h.nodup
  have absent : Keyed.find? children k = none := (Keyed.find?_eq_none_iff _ _).mpr parts.1
  refine ⟨parts.2, ?_, ?_⟩
  · intro j
    by_cases same : j = k
    · subst same
      simp [absent]
    · rw [Function.update_of_ne same, ← h.present j]
      simp [Keyed.find?, Ne.symm same]
  · intro j own found
    have other : k ≠ j := by
      rintro rfl
      rw [absent] at found
      cases found
    rw [Function.update_of_ne (Ne.symm other)]
    exact h.stands j own (by simpa [Keyed.find?, other] using found)

/-- Where a child is found matters only for the keys that there are. -/
theorem congr_reach (h : Branches lead rests reach children) {reach' : String → PathSet}
    (same : ∀ k, (rests k).Nonempty → reach' k = reach k) :
    Branches lead rests reach' children := by
  refine ⟨h.nodup, h.present, ?_⟩
  intro k own found
  rw [same k ((h.present k).mp (by rw [found]; rfl))]
  exact h.stands k own found

end Branches

/-- What stands under a key before something is added: a grant for a set of paths, or
nothing for the empty set. -/
def Found (S : PathSet) : Option Grant → Prop
  | none => S = ∅
  | some g => Stands below S g

theorem Branches.found (h : Branches below rests rests children) (k : String) :
    Found (rests k) (Keyed.find? children k) := by
  cases found : Keyed.find? children k with
  | none => exact h.rests_eq_empty found
  | some g => exact h.stands k g found

theorem Found.branches_nil : Branches below (below ∅) (below ∅) [] :=
  ⟨List.nodup_nil, fun k => by simp [Keyed.find?, below], fun _ _ found => by cases found⟩

theorem asFields_found {key path : String} {target : Option Grant} (h : Found S target)
    (run : asFields key path target = .ok children) :
    Branches below (below S) (below S) children ∧ ¬ Selects S := by
  cases target with
  | none =>
    cases run
    obtain rfl : S = ∅ := h
    exact ⟨Found.branches_nil, fun ⟨k, nonempty, _⟩ => Set.not_nonempty_empty nonempty⟩
  | some g =>
    obtain ⟨kind, branches⟩ := stands_iff.mp h
    by_cases elements : g.kind = .elements
    · simp [asFields, elements] at run
    · simp only [asFields, elements, if_false, Except.ok.injEq] at run
      subst run
      refine ⟨branches, ?_⟩
      cases hk : g.kind with
      | whole => rw [hk] at kind; exact kind.2
      | fields => rw [hk] at kind; exact kind.2
      | elements => exact absurd hk elements

theorem asElements_found {key path : String} {target : Option Grant} (h : Found S target)
    (run : asElements key path target = .ok children) :
    Branches below (below S) (below S) children ∧ ¬ Names S := by
  cases target with
  | none =>
    cases run
    obtain rfl : S = ∅ := h
    exact ⟨Found.branches_nil, fun ⟨k, nonempty, _⟩ => Set.not_nonempty_empty nonempty⟩
  | some g =>
    obtain ⟨kind, branches⟩ := stands_iff.mp h
    by_cases fields : g.kind = .fields
    · simp [asElements, fields] at run
    · simp only [asElements, fields, if_false, Except.ok.injEq] at run
      subst run
      refine ⟨branches, ?_⟩
      cases hk : g.kind with
      | whole => rw [hk] at kind; exact kind.1
      | fields => exact absurd hk fields
      | elements => rw [hk] at kind; exact kind.2

/-- The grant for an element is found under a segment through which leads all that leads
through its position. -/
theorem exists_find?_of_element? (h : Stands through S g) {index : Nat} {own : Grant}
    (found : g.element? index = some own) :
    ∃ k, Keyed.find? g.children k = some own ∧ through S k = through S (Number.natText index) := by
  obtain ⟨_, branches⟩ := stands_iff.mp h
  cases mine : Keyed.find? g.children (Number.natText index) with
  | some child =>
    simp only [element?, Number.intText_natCast, mine] at found
    exact ⟨_, mine.trans found, rfl⟩
  | none =>
    simp only [element?, Number.intText_natCast, mine] at found
    refine ⟨_, found, ?_⟩
    rw [through_selector (Path.isSelector_natText index), branches.rests_eq_empty mine,
      Set.union_empty, through_wildcard]

/-- The grant for an element stands for all that leads through its position. -/
theorem element_stands (h : Stands through S g) {index : Nat} {own : Grant}
    (found : g.element? index = some own) :
    Stands through (through S (Number.natText index)) own ∧
      (through S (Number.natText index)).Nonempty := by
  obtain ⟨_, branches⟩ := stands_iff.mp h
  obtain ⟨k, inside, same⟩ := exists_find?_of_element? h found
  have nonempty := (branches.present k).mp (by rw [inside]; rfl)
  rw [← same]
  exact ⟨branches.stands k own inside, nonempty.mono below_subset_through⟩

/-- Without a grant for an element, nothing leads through its position. -/
theorem through_eq_empty (h : Stands through S g) {index : Nat}
    (absent : g.element? index = none) : through S (Number.natText index) = ∅ := by
  obtain ⟨_, branches⟩ := stands_iff.mp h
  cases mine : Keyed.find? g.children (Number.natText index) with
  | some child => simp [element?, Number.intText_natCast, mine] at absent
  | none =>
    simp only [element?, Number.intText_natCast, mine] at absent
    rw [through_selector (Path.isSelector_natText index), branches.rests_eq_empty mine,
      branches.rests_eq_empty absent, Set.union_empty]

theorem not_isSelector (h : HasKind S .fields) {k : String} (nonempty : (below S k).Nonempty) :
    Path.isSelector k = false := by
  by_contra selects
  exact h.2 ⟨k, nonempty, by simpa using selects⟩

/-- Under a grant of fields no wildcard leads anywhere. -/
theorem fields_branches (h : Stands through S g) (fields : g.kind = .fields) :
    Branches through (below S) (below S) g.children := by
  obtain ⟨kind, branches⟩ := stands_iff.mp h
  rw [fields] at kind
  exact branches.congr_reach fun k nonempty => (through_field (not_isSelector kind nonempty)).symm

theorem elements_children (h : Stands lead S g) (elements : g.kind = .elements) :
    g.children.isEmpty = false := by
  obtain ⟨kind, branches⟩ := stands_iff.mp h
  rw [elements] at kind
  obtain ⟨k, nonempty, _⟩ := kind.1
  have there := (branches.present k).mpr nonempty
  cases hc : g.children with
  | nil => rw [hc] at there; cases there
  | cons entry rest => rfl

end Grant
end Permit
