import Permit.Proofs.Grant.Shape

namespace Permit.Grant

open PathSet

variable {S : PathSet} {children out : List (String × Grant)}

theorem find?_allowWhole (children : List (String × Grant)) (key other : String) :
    Keyed.find? (allowWhole children key) other =
      if key = other then some ((Keyed.find? children key).getD whole)
      else Keyed.find? children other := by
  cases found : Keyed.find? children key with
  | some g =>
    by_cases same : key = other
    · subst same
      simp [allowWhole, found]
    · simp [allowWhole, found, same]
  | none =>
    have grown : allowWhole children key = Keyed.put children key whole := by
      rw [Keyed.put_of_absent whole found, allowWhole, found]
    rw [grown, Keyed.find?_put]
    rfl

theorem nodup_keys_allowWhole (once : (Keyed.keys children).Nodup) (key : String) :
    (Keyed.keys (allowWhole children key)).Nodup := by
  cases found : Keyed.find? children key with
  | some g => simpa only [allowWhole, found] using once
  | none =>
    simp only [allowWhole, found]
    rw [← Keyed.put_of_absent whole found]
    exact Keyed.nodup_keys_put _ _ _ once

/-- A path that ends at a key is there, and below the key nothing is added to. -/
theorem allowWhole_branches (h : Branches below (below S) (below S) children) (last : String) :
    Branches below (below (S ∪ {[last]})) (below (S ∪ {[last]})) (allowWhole children last) := by
  refine ⟨nodup_keys_allowWhole h.nodup last, ?_, ?_⟩
  · intro k
    rw [find?_allowWhole, below_union]
    by_cases same : last = k
    · subst same
      simp [below_singleton_self]
    · simp [same, below_singleton_other (Ne.symm same), h.present k]
  · intro k g found
    rw [find?_allowWhole] at found
    rw [below_union]
    by_cases same : last = k
    · subst same
      have rests (k : String) : below (below S last ∪ {[]}) k = below (below S last) k := by
        rw [below_union, below_singleton_nil, Set.union_empty]
      rw [if_pos rfl, Option.some.injEq] at found
      rw [below_singleton_self, ← found]
      cases there : Keyed.find? children last with
      | some old => exact stands_congr (h.stands last old there) fun k => (rests k).symm
      | none =>
        apply stands_whole
        intro k
        rw [rests k, h.rests_eq_empty there]
        rfl
    · rw [if_neg same] at found
      rw [below_singleton_other (Ne.symm same), Set.union_empty]
      exact h.stands k g found

/-- One step of a path: the next segment says what the grant under this one becomes. -/
theorem insert_next (path : String) (children : List (String × Grant)) (before : List String)
    (segment next : String) (rest : List String)
    (flat : Path.hasNestedSelectors (next :: rest) = false) :
    insert path children before (segment :: next :: rest) =
      ((if Path.isSelector next then asElements else asFields)
        (Path.ofSegments (before ++ [segment])) path (Keyed.find? children segment)
      >>= fun inner => insert path inner (before ++ [segment]) (next :: rest)
      >>= fun inner => .ok (Keyed.put children segment
        (.node (if Path.isSelector next then .elements else .fields) inner))) := by
  cases selects : Path.isSelector next with
  | false => simp only [insert, selects]; rfl
  | true =>
    cases rest with
    | nil => simp only [insert, selects]; rfl
    | cons after more =>
      have field : Path.isSelector after = false := by
        simp only [Path.hasNestedSelectors, selects, Bool.true_and, Bool.or_eq_false_iff] at flat
        exact flat.1
      simp only [insert, selects, field, if_true, Bool.false_eq_true, if_false, bind_assoc,
        pure_bind]
      rfl

theorem flat_tail {segment : String} {rest : List String}
    (flat : Path.hasNestedSelectors (segment :: rest) = false) :
    Path.hasNestedSelectors rest = false := by
  cases rest with
  | nil => rfl
  | cons next more =>
    simp only [Path.hasNestedSelectors, Bool.or_eq_false_iff] at flat
    exact flat.2

/-- What stands under a segment before a rest that begins with `next` is added to it. -/
theorem opened {key path next : String} {target : Option Grant} (h : Found S target)
    (run : (if Path.isSelector next then asElements else asFields) key path target = .ok children)
    (rest : List String) :
    Branches below (below S) (below S) children ∧
      HasKind (S ∪ {next :: rest}) (if Path.isSelector next then .elements else .fields) := by
  have added : (below ({next :: rest} : PathSet) next).Nonempty := ⟨rest, rfl⟩
  have only {k : String} (nonempty : (below ({next :: rest} : PathSet) k).Nonempty) : k = next := by
    by_contra other
    rw [below_singleton_other other] at nonempty
    exact Set.not_nonempty_empty nonempty
  cases selects : Path.isSelector next with
  | true =>
    simp only [selects, if_true] at run ⊢
    obtain ⟨branches, free⟩ := asElements_found h run
    refine ⟨branches, selects_union.mpr (.inr ⟨next, added, selects⟩), ?_⟩
    rw [names_union, not_or]
    refine ⟨free, ?_⟩
    rintro ⟨k, nonempty, field⟩
    rw [only nonempty, selects] at field
    cases field
  | false =>
    simp only [selects, Bool.false_eq_true, if_false] at run ⊢
    obtain ⟨branches, free⟩ := asFields_found h run
    refine ⟨branches, names_union.mpr (.inr ⟨next, added, selects⟩), ?_⟩
    rw [selects_union, not_or]
    refine ⟨free, ?_⟩
    rintro ⟨k, nonempty, selector⟩
    rw [only nonempty, selects] at selector
    cases selector

/-- **Adding a path.** Grants that stand for a set of paths stand for that set with the
path in it once it has been added. -/
theorem insert_branches {path : String} {segments : List String} :
    ∀ {S : PathSet} {children out : List (String × Grant)} {before : List String},
      segments ≠ [] → Path.hasNestedSelectors segments = false →
      Branches below (below S) (below S) children →
      insert path children before segments = .ok out →
      Branches below (below (S ∪ {segments})) (below (S ∪ {segments})) out := by
  induction segments with
  | nil => intro _ _ _ _ absent; exact absurd rfl absent
  | cons segment rest ih =>
    intro S children out before _ flat h run
    cases rest with
    | nil =>
      cases run
      exact allowWhole_branches h segment
    | cons next more =>
      rw [insert_next path children before segment next more (flat_tail flat)] at run
      obtain ⟨inner, enter, run⟩ := Outcome.bind_eq_ok_iff.mp run
      obtain ⟨grown, step, run⟩ := Outcome.bind_eq_ok_iff.mp run
      cases run
      obtain ⟨branches, kind⟩ := opened (h.found segment) enter more
      have added := ih (List.cons_ne_nil next more) (flat_tail flat) branches step
      have nonempty : (below S segment ∪ {next :: more}).Nonempty := ⟨next :: more, .inr rfl⟩
      have update : below (S ∪ {segment :: next :: more}) =
          Function.update (below S) segment (below S segment ∪ {next :: more}) := by
        funext k
        rw [below_union]
        by_cases same : k = segment
        · subst same
          rw [Function.update_self, below_singleton_self]
        · rw [Function.update_of_ne same, below_singleton_other same, Set.union_empty]
      rw [update]
      exact h.put nonempty (stands_iff.mpr ⟨kind, added⟩)

end Permit.Grant
