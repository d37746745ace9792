import Mathlib.Data.List.Forall2
import Permit.Proofs.Grant.Unmixed

/-!
When two paths contradict each other, said of the paths alone. Their first segments may
lead to a common element, and there one names a field while the other selects an element:
`Path.Clash`. Main statement: paths that begin with names of fields are unmixed below every
segment if and only if no two of them clash (`PathSet.unmixed_iff_not_clash`).
-/
namespace Permit

namespace Path

/-- Two segments that can lead to the same part of a value: the same segment twice, or `*`
and a selector. -/
def Compatible (first second : String) : Prop :=
  first = second ∨
    (isSelector first = true ∧ isSelector second = true ∧
      (first = wildcard ∨ second = wildcard))

instance (first second : String) : Decidable (Compatible first second) :=
  inferInstanceAs (Decidable (_ ∨ _))

/-- Two paths clash if some of their first segments are compatible, one after the other,
and the first path then selects an element where the second names a field. -/
def Clash (p q : List String) : Prop :=
  ∃ k, 1 ≤ k ∧ List.Forall₂ Compatible (p.take k) (q.take k) ∧
    (∃ next, p[k]? = some next ∧ isSelector next = true) ∧
    ∃ next, q[k]? = some next ∧ isSelector next = false

def Consistent (paths : List (List String)) : Prop := ∀ p ∈ paths, ∀ q ∈ paths, ¬ Clash p q

/-- A segment leads through a key: its own, or that of any element if it is `*`. -/
def Leads (segment key : String) : Prop :=
  segment = key ∨ (isSelector key = true ∧ segment = wildcard)

theorem Leads.eq_of_name {segment key : String} (h : Leads segment key)
    (name : isSelector segment = false) : segment = key := by
  rcases h with same | ⟨_, rfl⟩
  · exact same
  · rw [isSelector_wildcard] at name
    cases name

theorem Leads.compatible {first second key : String} (h : Leads first key)
    (h' : Leads second key) : Compatible first second := by
  rcases h with rfl | ⟨selector, rfl⟩ <;> rcases h' with rfl | ⟨selector', rfl⟩
  · exact .inl rfl
  · exact .inr ⟨selector', isSelector_wildcard, .inr rfl⟩
  · exact .inr ⟨isSelector_wildcard, selector, .inl rfl⟩
  · exact .inl rfl

/-- Compatible segments lead through a common key, the more special one of them. -/
theorem Compatible.exists_leads {first second : String} (h : Compatible first second) :
    ∃ key, Leads first key ∧ Leads second key := by
  rcases h with rfl | ⟨selector, selector', rfl | rfl⟩
  · exact ⟨first, .inl rfl, .inl rfl⟩
  · exact ⟨second, .inr ⟨selector', rfl⟩, .inl rfl⟩
  · exact ⟨first, .inl rfl, .inr ⟨selector, rfl⟩⟩

theorem compatible_of_leads {starts starts' place : List String}
    (h : List.Forall₂ Leads starts place) (h' : List.Forall₂ Leads starts' place) :
    List.Forall₂ Compatible starts starts' := by
  induction h generalizing starts' with
  | nil =>
    cases h'
    exact .nil
  | cons first _ ih =>
    cases h' with
    | cons first' rest' => exact .cons (first.compatible first') (ih rest')

theorem exists_place_of_compatible {starts starts' : List String}
    (h : List.Forall₂ Compatible starts starts') :
    ∃ place, List.Forall₂ Leads starts place ∧ List.Forall₂ Leads starts' place := by
  induction h with
  | nil => exact ⟨[], .nil, .nil⟩
  | cons first _ ih =>
    obtain ⟨key, leads, leads'⟩ := first.exists_leads
    obtain ⟨place, all, all'⟩ := ih
    exact ⟨key :: place, .cons leads all, .cons leads' all'⟩

theorem eq_take_append {path : List String} {k : Nat} {next : String} (h : path[k]? = some next) :
    ∃ rest, path = path.take k ++ next :: rest := by
  obtain ⟨inside, same⟩ := List.getElem?_eq_some_iff.mp h
  refine ⟨path.drop (k + 1), ?_⟩
  rw [← same, ← List.drop_eq_getElem_cons inside, List.take_append_drop]

end Path

namespace PathSet

open Permit.Path

variable {S : PathSet}

theorem mem_through {key : String} {rest : List String} :
    rest ∈ through S key ↔ ∃ segment, Leads segment key ∧ segment :: rest ∈ S := by
  constructor
  · rintro (inside | ⟨selector, inside⟩)
    · exact ⟨key, .inl rfl, inside⟩
    · exact ⟨wildcard, .inr ⟨selector, rfl⟩, inside⟩
  · rintro ⟨segment, rfl | ⟨selector, rfl⟩, inside⟩
    · exact .inl inside
    · exact .inr ⟨selector, inside⟩

/-- What is left along a place are the rests after segments that lead there. -/
theorem mem_along {place rest : List String} :
    rest ∈ along through S place ↔
      ∃ starts, List.Forall₂ Leads starts place ∧ starts ++ rest ∈ S := by
  induction place generalizing S with
  | nil =>
    constructor
    · intro inside
      exact ⟨[], .nil, inside⟩
    · rintro ⟨starts, none, inside⟩
      cases none
      exact inside
  | cons key place ih =>
    rw [along, ih]
    constructor
    · rintro ⟨starts, leads, inside⟩
      obtain ⟨segment, first, inside⟩ := mem_through.mp inside
      exact ⟨segment :: starts, .cons first leads, inside⟩
    · rintro ⟨_, leads, inside⟩
      cases leads with
      | @cons segment _ starts _ first leads =>
        exact ⟨starts, leads, mem_through.mpr ⟨segment, first, inside⟩⟩

theorem goesOn_iff {key : String} {place : List String} {sort : Bool} :
    (∃ next, (below (along through (below S key) place) next).Nonempty ∧
        isSelector next = sort) ↔
      ∃ starts next rest, List.Forall₂ Leads starts place ∧
        key :: starts ++ next :: rest ∈ S ∧ isSelector next = sort := by
  constructor
  · rintro ⟨next, ⟨rest, inside⟩, sorted⟩
    obtain ⟨starts, leads, path⟩ := mem_along.mp inside
    exact ⟨starts, next, rest, leads, path, sorted⟩
  · rintro ⟨starts, next, rest, leads, path, sorted⟩
    exact ⟨next, ⟨rest, mem_along.mpr ⟨starts, leads, path⟩⟩, sorted⟩

/-- The beginning of a path that names a field first leads through that name. -/
theorem exists_goesOn {path : List String} {k : Nat} {next key : String} {place : List String}
    (named : path.head?.any isSelector = false) (h : path[k]? = some next)
    (leads : List.Forall₂ Leads (path.take k) (key :: place)) :
    ∃ starts rest, List.Forall₂ Leads starts place ∧ path = key :: starts ++ next :: rest := by
  obtain ⟨rest, same⟩ := eq_take_append h
  cases parts : path.take k with
  | nil =>
    rw [parts] at leads
    cases leads
  | cons segment starts =>
    rw [parts] at leads same
    cases leads with
    | cons first leads =>
      rw [same] at named
      obtain rfl : segment = key := first.eq_of_name (by simpa using named)
      exact ⟨starts, rest, leads, same⟩

/-- **No clash.** Paths that begin with names of fields agree about the shape of every value
if and only if no two of them clash. -/
theorem unmixed_iff_not_clash (named : ∀ path ∈ S, path.head?.any isSelector = false) :
    (∀ key, Unmixed through (below S key)) ↔ ∀ p ∈ S, ∀ q ∈ S, ¬ Clash p q := by
  constructor
  · rintro unmixed p hp q hq ⟨k, some, compatible, ⟨next, at', selector⟩, ⟨next', at'', field⟩⟩
    obtain ⟨place, leads, leads'⟩ := exists_place_of_compatible compatible
    cases place with
    | nil =>
      -- at least one segment comes before the one at which the paths part
      have empty : p.take k = [] := List.forall₂_nil_right_iff.mp leads
      rcases List.take_eq_nil_iff.mp empty with none | none
      · omega
      · rw [none] at at'
        cases at'
    | cons key place =>
      obtain ⟨starts, rest, leads, same⟩ := exists_goesOn (named p hp) at' leads
      obtain ⟨starts', rest', leads', same'⟩ := exists_goesOn (named q hq) at'' leads'
      refine unmixed key place ⟨goesOn_iff.mpr ?_, goesOn_iff.mpr ?_⟩
      · exact ⟨starts', next', rest', leads', same' ▸ hq, field⟩
      · exact ⟨starts, next, rest, leads, same ▸ hp, selector⟩
  · rintro apart key place ⟨names, selects⟩
    obtain ⟨starts, next, rest, leads, inside, field⟩ := goesOn_iff.mp names
    obtain ⟨starts', next', rest', leads', inside', selector⟩ := goesOn_iff.mp selects
    have long : starts.length = place.length := leads.length_eq
    have long' : starts'.length = place.length := leads'.length_eq
    refine apart _ inside' _ inside ⟨place.length + 1, Nat.le_add_left .., ?_, ?_, ?_⟩
    · simp only [List.cons_append, List.take_succ_cons]
      rw [← long', List.take_left, long', ← long, List.take_left]
      exact .cons (.inl rfl) (compatible_of_leads leads' leads)
    · exact ⟨next', by simp [← long'], selector⟩
    · exact ⟨next, by simp [← long], field⟩

end PathSet
end Permit
