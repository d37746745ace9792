import Permit.Grant.Wildcard
import Permit.Proofs.Grant.Shape

namespace Permit.Grant

open PathSet

variable {S T : PathSet} {children out : List (String × Grant)}

theorem height_lt_childrenHeight {k : String} {g : Grant}
    (found : Keyed.find? children k = some g) : g.height < childrenHeight children := by
  induction children with
  | nil => cases found
  | cons entry rest ih =>
    obtain ⟨key, own⟩ := entry
    simp only [childrenHeight]
    by_cases same : key = k
    · simp only [Keyed.find?, same, if_true, Option.some.injEq] at found
      subst found
      omega
    · simp only [Keyed.find?, same, if_false] at found
      have := ih found
      omega

mutual

/-- **Merging.** What is merged out of two grants stands for the paths of both. -/
theorem merge_stands {place : List String} {S T : PathSet} {target : Option Grant} {out : Grant} :
    ∀ {g : Grant}, Stands below S g → Found T target → merge place g target = .ok out →
      Stands below (S ∪ T) out
  | .node .whole children, h, found, run => by
    cases run
    have rests (k : String) : below T k = below (S ∪ T) k := by
      have nothing := below_eq_empty_of_whole (stands_iff.mp h).1 k
      rw [below_union, nothing, Set.empty_union]
    cases target with
    | some old => exact stands_congr found rests
    | none =>
      obtain rfl : T = ∅ := found
      exact stands_whole fun k => (rests k).symm
  | .node .fields wider, h, found, run => by
    obtain ⟨kind, branches⟩ := stands_iff.mp h
    obtain ⟨inner, enter, run⟩ := Outcome.bind_eq_ok_iff.mp run
    obtain ⟨merged, step, run⟩ := Outcome.bind_eq_ok_iff.mp run
    cases run
    obtain ⟨there, free⟩ := asFields_found found enter
    refine stands_iff.mpr ⟨⟨names_union.mpr (.inl kind.1), ?_⟩, ?_⟩
    · rw [selects_union, not_or]
      exact ⟨kind.2, free⟩
    · exact mergeChildren_branches branches there step
  | .node .elements wider, h, found, run => by
    obtain ⟨kind, branches⟩ := stands_iff.mp h
    obtain ⟨inner, enter, run⟩ := Outcome.bind_eq_ok_iff.mp run
    obtain ⟨merged, step, run⟩ := Outcome.bind_eq_ok_iff.mp run
    cases run
    obtain ⟨there, free⟩ := asElements_found found enter
    refine stands_iff.mpr ⟨⟨selects_union.mpr (.inl kind.1), ?_⟩, ?_⟩
    · rw [names_union, not_or]
      exact ⟨kind.2, free⟩
    · exact mergeChildren_branches branches there step

theorem mergeChildren_branches {place : List String} {children out : List (String × Grant)}
    {more rests : String → PathSet} :
    ∀ {wider : List (String × Grant)}, Branches below more more wider →
      Branches below rests rests children →
      mergeChildren place wider children = .ok out →
      Branches below (fun k => more k ∪ rests k) (fun k => more k ∪ rests k) out
  | [], wider, there, run => by
    cases run
    have nothing (k : String) : more k = ∅ := wider.rests_eq_empty rfl
    simpa only [nothing, Set.empty_union] using there
  | (key, g) :: rest, wider, there, run => by
    obtain ⟨widened, first, run⟩ := Outcome.bind_eq_ok_iff.mp run
    have own := wider.stands key g (by simp [Keyed.find?])
    have nonempty : (more key).Nonempty := (wider.present key).mp (by simp [Keyed.find?])
    have some : (more key ∪ rests key).Nonempty := nonempty.mono Set.subset_union_left
    have grown := there.put (k := key) some (merge_stands own (there.found key) first)
    have added := mergeChildren_branches wider.tail grown run
    have total : (fun k => Function.update more key ∅ k ∪
        Function.update rests key (more key ∪ rests key) k) = fun k => more k ∪ rests k := by
      funext k
      by_cases same : k = key
      · subst same
        simp
      · simp [Function.update_of_ne same]
    exact total ▸ added

end

/-- The elements of a grant once what is granted for all has been merged into each. -/
theorem spread_branches {place : List String}
    (h : Branches below (below S) (below S) children) (selectors : ¬ Names S)
    (run : spread place children = .ok out) :
    Branches below (below S) (through S) out := by
  have selector {k : String} (nonempty : (below S k).Nonempty) : Path.isSelector k = true := by
    by_contra field
    exact selectors ⟨k, nonempty, by simpa using field⟩
  cases found : Keyed.find? children Path.wildcard with
  | none =>
    simp only [spread, found, Except.ok.injEq] at run
    subst run
    refine h.congr_reach fun k nonempty => ?_
    rw [through_selector (selector nonempty), h.rests_eq_empty found, Set.empty_union]
  | some every =>
    simp only [spread, found] at run
    have keeps (entry other : String × Grant)
        (step : (if entry.1 = Path.wildcard then (.ok (entry.1, entry.2) : Except PathFault _)
          else (merge (place ++ [entry.1]) every (some entry.2)).map
            fun widened => (entry.1, widened)) = .ok other) : other.1 = entry.1 := by
      split at step
      · cases step; rfl
      · obtain ⟨widened, _, same⟩ := Outcome.map_eq_ok_iff.mp step
        rw [← same]
    have keys := Keyed.keys_mapM keeps run
    refine ⟨keys ▸ h.nodup, ?_, ?_⟩
    · intro k
      rw [Keyed.isSome_find?_iff, keys, ← Keyed.isSome_find?_iff, h.present k]
    · intro k g there
      obtain ⟨old, was, step⟩ := Keyed.find?_mapM keeps run there
      have own : Found (below S k) (some old) := h.stands k old was
      by_cases all : k = Path.wildcard
      · subst all
        simp only [if_true, Except.ok.injEq, Prod.mk.injEq, true_and] at step
        rw [through_wildcard, ← step]
        exact own
      · simp only [all, if_false] at step
        obtain ⟨widened, merged, same⟩ := Outcome.map_eq_ok_iff.mp step
        obtain rfl : widened = g := (Prod.mk.inj same).2
        rw [through_selector (selector ((h.present k).mp (by rw [was]; rfl)))]
        exact merge_stands (h.stands _ every found) own merged

/-- Below a grant of any kind, the children stand for what leads through them once its
wildcard is spread; a grant of fields has none. -/
theorem below_spread {place : List String} {g : Grant} (h : Stands below S g)
    (run : (if g.kind = .elements then spread place g.children else pure g.children) =
      .ok children) :
    Branches below (below S) (through S) children := by
  obtain ⟨kind, branches⟩ := stands_iff.mp h
  by_cases elements : g.kind = .elements
  · rw [if_pos elements] at run
    rw [elements] at kind
    exact spread_branches branches kind.2 run
  · rw [if_neg elements] at run
    cases run
    refine branches.congr_reach fun k nonempty => through_field ?_
    by_contra selects
    have free : ¬ Selects S := by
      cases hk : g.kind with
      | whole => rw [hk] at kind; exact kind.2
      | fields => rw [hk] at kind; exact kind.2
      | elements => exact absurd hk elements
    exact free ⟨k, nonempty, by simpa using selects⟩

/-- A grant has a level for every segment of the paths it stands for. -/
theorem length_le_height {g : Grant} (h : Stands below S g) :
    ∀ rest ∈ S, rest.length ≤ g.height := by
  induction h with
  | @node S kind children _ _ present _ ih =>
    intro rest inside
    cases rest with
    | nil => exact Nat.zero_le _
    | cons segment more =>
      obtain ⟨g, found⟩ := Option.isSome_iff_exists.mp ((present segment).mpr ⟨more, inside⟩)
      have high := height_lt_childrenHeight found
      have long := ih segment g found more inside
      simp only [height, List.length_cons]
      omega

/-- One level: the wildcard of each grant is spread, then those below it. -/
theorem closeTo_succ (depth : Nat) (place : List String) (children : List (String × Grant)) :
    closeTo (depth + 1) place children = children.mapM fun entry =>
      (if entry.2.kind = .elements then spread (place ++ [entry.1]) entry.2.children
        else pure entry.2.children)
      >>= fun inner => closeTo depth (place ++ [entry.1]) inner
      >>= fun closed => .ok (entry.1, .node entry.2.kind closed) := by
  rw [closeTo]
  congr 1
  funext entry
  obtain ⟨key, g⟩ := entry
  by_cases elements : g.kind = .elements <;> simp [elements, bind_pure_comp] <;> rfl

/-- Spreading the wildcards level by level, with a level left for every segment. -/
theorem closeTo_branches {depth : Nat} :
    ∀ {place : List String} {rests reach : String → PathSet} {children out : List (String × Grant)},
      Branches below rests reach children → (∀ k, rests k ⊆ reach k) →
      (∀ k g, Keyed.find? children k = some g → ∀ rest ∈ reach k, rest.length < depth) →
      closeTo depth place children = .ok out →
      Branches through rests reach out := by
  induction depth with
  | zero =>
    intro place rests reach children out h wide room run
    cases run
    refine ⟨h.nodup, h.present, ?_⟩
    intro k g found
    obtain ⟨rest, inside⟩ := (h.present k).mp (by rw [found]; rfl)
    exact absurd (room k g found rest (wide k inside)) (Nat.not_lt_zero _)
  | succ depth ih =>
    intro place rests reach children out h wide room run
    rw [closeTo_succ] at run
    have keeps (entry other : String × Grant)
        (step : ((if entry.2.kind = .elements then spread (place ++ [entry.1]) entry.2.children
            else pure entry.2.children)
          >>= fun inner => closeTo depth (place ++ [entry.1]) inner
          >>= fun closed => .ok (entry.1, .node entry.2.kind closed)) = .ok other) :
        other.1 = entry.1 := by
      obtain ⟨inner, _, step⟩ := Outcome.bind_eq_ok_iff.mp step
      obtain ⟨closed, _, step⟩ := Outcome.bind_eq_ok_iff.mp step
      cases step
      rfl
    have keys := Keyed.keys_mapM keeps run
    refine ⟨keys ▸ h.nodup, ?_, ?_⟩
    · intro k
      rw [Keyed.isSome_find?_iff, keys, ← Keyed.isSome_find?_iff, h.present k]
    · intro k g there
      obtain ⟨old, was, step⟩ := Keyed.find?_mapM keeps run there
      obtain ⟨inner, opened, step⟩ := Outcome.bind_eq_ok_iff.mp step
      obtain ⟨closed, deeper, step⟩ := Outcome.bind_eq_ok_iff.mp step
      cases step
      have own := h.stands k old was
      have spread := below_spread own opened
      refine stands_iff.mpr ⟨(stands_iff.mp own).1, ih spread ?_ ?_ deeper⟩
      · exact fun j => below_subset_through
      · intro j child _ rest inside
        rcases inside with inside | ⟨_, inside⟩
        · exact Nat.lt_of_succ_lt_succ (room k old was (j :: rest) inside)
        · exact Nat.lt_of_succ_lt_succ (room k old was (Path.wildcard :: rest) inside)

/-- **Spreading all wildcards.** Every child then stands for all that leads through it. -/
theorem close_branches {rests : String → PathSet} (h : Branches below rests rests children)
    (run : close children = .ok out) : Branches through rests rests out := by
  refine closeTo_branches h (fun _ => subset_rfl) ?_ run
  intro k g found rest inside
  have long := length_le_height (h.stands k g found) rest inside
  have high := height_lt_childrenHeight found
  omega

end Permit.Grant
