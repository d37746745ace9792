import Permit.Proofs.Diff.Change
import Permit.Proofs.Projection.Trimmed

namespace Permit.Diff

def Changed (levels : Nat) (old new : Value) (place : List String) : Prop :=
  ∃ change, IsChange levels old new place change

namespace Changed

variable {levels : Nat} {old new was v : Value} {place rest : List String} {key : String}

theorem exists_cons (h : Changed levels old new place) : ∃ key rest, place = key :: rest :=
  h.elim fun _ h => h.exists_cons

theorem added_iff (absent : Keyed.find? old.parts key = none)
    (found : Keyed.find? new.parts key = some v) :
    Changed levels old new (key :: rest) ↔ rest = [] := by
  simp only [Changed, IsChange.added_iff absent found, exists_and_left, exists_eq, and_true]

theorem replaced_iff (before : Keyed.find? old.parts key = some was)
    (after : Keyed.find? new.parts key = some v) (differ : was.equal v = .ok false)
    (last : ¬ (was.isContainer = true ∧ v.isContainer = true ∧ 0 < levels)) :
    Changed levels old new (key :: rest) ↔ rest = [] := by
  simp only [Changed, IsChange.replaced_iff before after differ last, exists_and_left, exists_eq,
    and_true]

theorem within_iff (before : Keyed.find? old.parts key = some was)
    (after : Keyed.find? new.parts key = some v) (differ : was.equal v = .ok false)
    (left : was.isContainer = true) (right : v.isContainer = true) :
    Changed (levels + 1) old new (key :: rest) ↔ Changed levels was v rest := by
  simp only [Changed, IsChange.within_iff before after differ left right]

theorem differ (before : Keyed.find? old.parts key = some was)
    (after : Keyed.find? new.parts key = some v) (h : Changed levels old new (key :: rest)) :
    was.equal v = .ok false := h.elim fun _ h => (h.both before after).1

end Changed

variable {levels : Nat} {p v x : Value}

/-- A part that is not the same as what is left of it is a difference. -/
theorem equal_eq_false (trimmed : Trimmed p v) (json : v.isJson = true) (other : p ≠ v) :
    p.equal v = .ok false := by
  obtain ⟨same, compared⟩ := Value.equal_json p (trimmed.isJson json) v json
  cases same with
  | false => exact compared
  | true => exact absurd (trimmed.eq_of_equal json compared) other

/-- Where a container is not compared part by part, no leaf further down is left of it. -/
theorem eq_of_leaf {place : List String} (shallow : levels = 0 → place = [])
    (left : p.at? place = some x) (held : v.at? place = some x)
    (last : ¬ (p.isContainer = true ∧ v.isContainer = true ∧ 0 < levels)) : p = v := by
  have ends : place = [] := by
    by_cases hp : p.isContainer = true
    · by_cases hv : v.isContainer = true
      · exact shallow (Nat.eq_zero_of_not_pos fun more => last ⟨hp, hv, more⟩)
      · exact Value.eq_nil_of_at? (by simpa using hv) held
    · exact Value.eq_nil_of_at? (by simpa using hp) left
  subst ends
  exact (Option.some.inj left).trans (Option.some.inj held).symm

/-- **A leaf that was trimmed away** lies under exactly one changed place. -/
theorem pruned_leaf {place : List String} : ∀ (levels : Nat) {p v : Value}, Trimmed p v →
    v.isJson = true → v.isContainer = true → x.isContainer = false →
    v.at? place = some x → p.at? place ≠ some x →
    ∃! outer, outer <+: place ∧ Changed levels p v outer := by
  induction place with
  | nil =>
    intro levels p v trimmed json container plain held gone
    rw [Option.some.inj held, plain] at container
    cases container
  | cons key place ih =>
    intro levels p v trimmed json container plain held gone
    obtain ⟨w, after, held⟩ := Value.at?_cons.mp held
    have hw := Value.isJson_part json after
    cases before : Keyed.find? p.parts key with
    | none =>
      refine ⟨[key], ⟨⟨place, rfl⟩, (Changed.added_iff before after).mpr rfl⟩, ?_⟩
      rintro outer ⟨begins, changed⟩
      obtain ⟨key', rest, rfl⟩ := changed.exists_cons
      obtain rfl := (List.cons_prefix_cons.mp begins).1
      rw [(Changed.added_iff before after).mp changed]
    | some q =>
      have part := trimmed.part_of_both before after
      have missing : q.at? place ≠ some x := by
        intro left
        exact gone (Value.at?_cons.mpr ⟨q, before, left⟩)
      have differ : q.equal w = .ok false := by
        refine equal_eq_false part hw fun same => ?_
        exact missing (same ▸ held)
      by_cases deeper : q.isContainer = true ∧ w.isContainer = true ∧ 0 < levels
      · obtain ⟨left, right, more⟩ := deeper
        obtain ⟨n, rfl⟩ := Nat.exists_eq_succ_of_ne_zero (Nat.ne_of_gt more)
        obtain ⟨outer, ⟨begins, changed⟩, only⟩ := ih n part hw right plain held missing
        refine ⟨key :: outer, ⟨List.cons_prefix_cons.mpr ⟨rfl, begins⟩,
          (Changed.within_iff before after differ left right).mpr changed⟩, ?_⟩
        rintro outer' ⟨begins', changed'⟩
        obtain ⟨key', rest, rfl⟩ := changed'.exists_cons
        obtain ⟨rfl, inside⟩ := List.cons_prefix_cons.mp begins'
        rw [only rest ⟨inside, (Changed.within_iff before after differ left right).mp changed'⟩]
      · have listed {rest : List String} : Changed levels p v (key :: rest) ↔ rest = [] :=
          Changed.replaced_iff before after differ deeper
        refine ⟨[key], ⟨⟨place, rfl⟩, listed.mpr rfl⟩, ?_⟩
        rintro outer ⟨begins, changed⟩
        obtain ⟨key', rest, rfl⟩ := changed.exists_cons
        obtain rfl := (List.cons_prefix_cons.mp begins).1
        rw [listed.mp changed]

/-- **A leaf that is left** lies under no changed place, if the walk can come down to it. -/
theorem kept_leaf {place : List String} : ∀ {levels : Nat} {p v : Value}, Trimmed p v →
    v.isJson = true → x.isContainer = false → v.at? place = some x → p.at? place = some x →
    place.length ≤ levels + 1 → ∀ outer, Changed levels p v outer → ¬ outer <+: place := by
  induction place with
  | nil =>
    rintro levels p v trimmed json plain held left room outer changed begins
    obtain ⟨key, rest, rfl⟩ := changed.exists_cons
    cases List.prefix_nil.mp begins
  | cons key place ih =>
    rintro levels p v trimmed json plain held left room outer changed begins
    obtain ⟨key', rest, rfl⟩ := changed.exists_cons
    obtain ⟨rfl, inside⟩ := List.cons_prefix_cons.mp begins
    obtain ⟨w, after, held⟩ := Value.at?_cons.mp held
    obtain ⟨q, before, left⟩ := Value.at?_cons.mp left
    have hw := Value.isJson_part json after
    have part := trimmed.part_of_both before after
    have differ := changed.differ before after
    have other : q ≠ w := by
      rintro rfl
      rw [Value.equal_self q hw] at differ
      cases differ
    by_cases deeper : q.isContainer = true ∧ w.isContainer = true ∧ 0 < levels
    · obtain ⟨within, without, more⟩ := deeper
      obtain ⟨n, rfl⟩ := Nat.exists_eq_succ_of_ne_zero (Nat.ne_of_gt more)
      have changed := (Changed.within_iff before after differ within without).mp changed
      exact ih part hw plain held left (by simpa using room) rest changed inside
    · refine other (eq_of_leaf ?_ left held deeper)
      intro none
      rw [List.length_cons, none] at room
      exact List.length_eq_zero_iff.mp (by omega)

end Permit.Diff
