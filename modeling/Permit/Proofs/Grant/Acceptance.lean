import Permit.Proofs.Grant.Compilation
import Permit.Proofs.Grant.Unmixed

namespace Permit

namespace Grant

open PathSet

variable {S T : PathSet} {children : List (String × Grant)} {path key : String} {fault : PathFault}

/-! ### Going through -/

theorem asFields_exists (key path : String) {target : Option Grant} (h : Found S target)
    (free : ¬ Selects S) :
    ∃ inner, asFields key path target = .ok inner := by
  cases target with
  | none => exact ⟨_, rfl⟩
  | some g =>
    have other : g.kind ≠ .elements := by
      intro kind
      have asked := (stands_iff.mp h).1
      rw [kind] at asked
      exact free asked.1
    exact ⟨g.children, by rw [asFields, if_neg other]⟩

theorem asElements_exists (key path : String) {target : Option Grant} (h : Found S target)
    (free : ¬ Names S) :
    ∃ inner, asElements key path target = .ok inner := by
  cases target with
  | none => exact ⟨_, rfl⟩
  | some g =>
    have other : g.kind ≠ .fields := by
      intro kind
      have asked := (stands_iff.mp h).1
      rw [kind] at asked
      exact free asked.1
    exact ⟨g.children, by rw [asElements, if_neg other]⟩

/-- What stands under a segment gives way to a rest with which its paths are unmixed. -/
theorem opened_exists (key path : String) {next : String} {target : Option Grant}
    (rest : List String) (h : Found S target) (unmixed : Unmixed below (S ∪ {next :: rest})) :
    ∃ inner, (if Path.isSelector next then asElements else asFields) key path target =
      .ok inner := by
  have added : (below (S ∪ {next :: rest}) next).Nonempty := ⟨rest, .inr rfl⟩
  cases selects : Path.isSelector next with
  | true =>
    have free := unmixed.not_names ⟨next, added, selects⟩
    rw [names_union, not_or] at free
    exact asElements_exists key path h free.1
  | false =>
    have free := unmixed.not_selects ⟨next, added, selects⟩
    rw [selects_union, not_or] at free
    exact asFields_exists key path h free.1

/-- **A path can be added** to grants if together with theirs it is unmixed below every
segment. -/
theorem insert_exists (path : String) {segments : List String} :
    ∀ {S : PathSet} {children : List (String × Grant)} (before : List String),
      Path.hasNestedSelectors segments = false →
      Branches below (below S) (below S) children →
      (∀ k, Unmixed below (below (S ∪ {segments}) k)) →
      ∃ out, insert path children before segments = .ok out := by
  induction segments with
  | nil => exact fun _ _ _ _ => ⟨_, rfl⟩
  | cons segment rest ih =>
    intro S children before flat h unmixed
    cases rest with
    | nil => exact ⟨_, rfl⟩
    | cons next more =>
      have here := unmixed segment
      rw [below_union, below_singleton_self] at here
      obtain ⟨inner, enter⟩ := opened_exists (Path.ofSegments (before ++ [segment])) path more
        (h.found segment) here
      obtain ⟨branches, _⟩ := opened (h.found segment) enter more
      obtain ⟨grown, step⟩ := ih (before ++ [segment]) (flat_tail flat) branches
        fun k => here.step k
      refine ⟨Keyed.put children segment
        (.node (if Path.isSelector next then .elements else .fields) grown), ?_⟩
      rw [insert_next path children before segment next more (flat_tail flat)]
      refine Outcome.bind_eq_ok_iff.mpr ⟨inner, enter, ?_⟩
      exact Outcome.bind_eq_ok_iff.mpr ⟨grown, step, rfl⟩

mutual

/-- **Two grants can be merged** if their paths together are unmixed. -/
theorem merge_exists {S T : PathSet} {target : Option Grant} :
    ∀ (place : List String) {g : Grant}, Stands below S g → Found T target → Unmixed below (S ∪ T) →
      ∃ out, merge place g target = .ok out
  | _, .node .whole _, _, _, _ => ⟨_, rfl⟩
  | place, .node .fields wider, h, found, unmixed => by
    obtain ⟨kind, branches⟩ := stands_iff.mp h
    have free := unmixed.not_selects (names_union.mpr (.inl kind.1))
    rw [selects_union, not_or] at free
    obtain ⟨inner, enter⟩ := asFields_exists (Path.ofSegments place) (Path.ofSegments place)
      found free.2
    obtain ⟨merged, step⟩ := mergeChildren_exists place branches
      (asFields_found found enter).1 fun k => unmixed.step k
    refine ⟨.node .fields merged, ?_⟩
    refine Outcome.bind_eq_ok_iff.mpr ⟨inner, enter, ?_⟩
    exact Outcome.bind_eq_ok_iff.mpr ⟨merged, step, rfl⟩
  | place, .node .elements wider, h, found, unmixed => by
    obtain ⟨kind, branches⟩ := stands_iff.mp h
    have free := unmixed.not_names (selects_union.mpr (.inl kind.1))
    rw [names_union, not_or] at free
    obtain ⟨inner, enter⟩ := asElements_exists (Path.ofSegments place) (Path.ofSegments place)
      found free.2
    obtain ⟨merged, step⟩ := mergeChildren_exists place branches
      (asElements_found found enter).1 fun k => unmixed.step k
    refine ⟨.node .elements merged, ?_⟩
    refine Outcome.bind_eq_ok_iff.mpr ⟨inner, enter, ?_⟩
    exact Outcome.bind_eq_ok_iff.mpr ⟨merged, step, rfl⟩

theorem mergeChildren_exists {children : List (String × Grant)} {more rests : String → PathSet} :
    ∀ (place : List String) {wider : List (String × Grant)}, Branches below more more wider →
      Branches below rests rests children → (∀ k, Unmixed below (more k ∪ rests k)) →
      ∃ out, mergeChildren place wider children = .ok out
  | _, [], _, _, _ => ⟨_, rfl⟩
  | place, (key, g) :: rest, wider, there, unmixed => by
    have own := wider.stands key g (by simp [Keyed.find?])
    have nonempty : (more key).Nonempty := (wider.present key).mp (by simp [Keyed.find?])
    obtain ⟨widened, first⟩ := merge_exists (place ++ [key]) own (there.found key)
      (unmixed key)
    have some : (more key ∪ rests key).Nonempty := nonempty.mono Set.subset_union_left
    have grown := there.put (k := key) some (merge_stands own (there.found key) first)
    obtain ⟨out, run⟩ := mergeChildren_exists place wider.tail grown fun k => by
      by_cases same : k = key
      · subst same
        simpa using unmixed k
      · simpa [Function.update_of_ne same] using unmixed k
    exact ⟨out, Outcome.bind_eq_ok_iff.mpr ⟨widened, first, run⟩⟩

end

theorem spread_exists (place : List String) (h : Branches below (below S) (below S) children)
    (selectors : ¬ Names S) (unmixed : ∀ k, Unmixed below (through S k)) :
    ∃ out, spread place children = .ok out := by
  cases found : Keyed.find? children Path.wildcard with
  | none => exact ⟨children, by rw [spread, found]⟩
  | some every =>
    simp only [spread, found]
    refine Outcome.mapM_exists_ok fun entry inside => ?_
    by_cases all : entry.1 = Path.wildcard
    · exact ⟨_, if_pos all⟩
    · have there := Keyed.find?_of_mem h.nodup inside
      have nonempty := (h.present entry.1).mp (by rw [there]; rfl)
      have selector : Path.isSelector entry.1 = true := by
        by_contra field
        exact selectors ⟨entry.1, nonempty, by simpa using field⟩
      have both := unmixed entry.1
      rw [through_selector selector] at both
      have own : Found (below S entry.1) (some entry.2) := h.stands _ _ there
      obtain ⟨widened, merged⟩ :=
        merge_exists (place ++ [entry.1]) (h.stands _ every found) own both
      exact ⟨(entry.1, widened), by rw [if_neg all, merged]; rfl⟩

theorem below_spread_exists (place : List String) {g : Grant} (h : Stands below S g)
    (unmixed : Unmixed through S) :
    ∃ inner, (if g.kind = .elements then spread place g.children else pure g.children) =
      .ok inner := by
  obtain ⟨kind, branches⟩ := stands_iff.mp h
  by_cases elements : g.kind = .elements
  · rw [if_pos elements]
    rw [elements] at kind
    exact spread_exists place branches kind.2 fun k => (unmixed.step k).before
  · exact ⟨g.children, if_neg elements⟩

/-- **The wildcards can be spread** where what leads through every segment is unmixed. -/
theorem closeTo_exists (depth : Nat) :
    ∀ (place : List String) {rests reach : String → PathSet} {children : List (String × Grant)},
      Branches below rests reach children → (∀ k, Unmixed through (reach k)) →
      ∃ out, closeTo depth place children = .ok out := by
  induction depth with
  | zero => exact fun _ _ _ _ _ _ => ⟨_, rfl⟩
  | succ depth ih =>
    intro place rests reach children h unmixed
    rw [closeTo_succ]
    refine Outcome.mapM_exists_ok fun entry inside => ?_
    have own := h.stands _ _ (Keyed.find?_of_mem h.nodup inside)
    obtain ⟨inner, opened⟩ := below_spread_exists (place ++ [entry.1]) own (unmixed entry.1)
    obtain ⟨closed, deeper⟩ := ih (place ++ [entry.1]) (below_spread own opened)
      fun k => (unmixed entry.1).step k
    refine ⟨(entry.1, .node entry.2.kind closed), ?_⟩
    refine Outcome.bind_eq_ok_iff.mpr ⟨inner, opened, ?_⟩
    exact Outcome.bind_eq_ok_iff.mpr ⟨closed, deeper, rfl⟩

/-! ### Failing -/

theorem family_of_asFields {target : Option Grant}
    (run : asFields key path target = .error fault) : fault.family = .conflict := by
  cases target with
  | none => cases run
  | some g =>
    rw [asFields] at run
    split at run
    · cases run
      rfl
    · cases run

theorem family_of_asElements {target : Option Grant}
    (run : asElements key path target = .error fault) : fault.family = .conflict := by
  cases target with
  | none => cases run
  | some g =>
    rw [asElements] at run
    split at run
    · cases run
      rfl
    · cases run

/-- Only a conflict with the paths before it keeps a path from being added. -/
theorem family_of_insert {segments : List String} :
    ∀ {children : List (String × Grant)} {before : List String},
      Path.hasNestedSelectors segments = false →
      insert path children before segments = .error fault → fault.family = .conflict := by
  induction segments with
  | nil => intro _ _ _ run; cases run
  | cons segment rest ih =>
    intro children before flat run
    cases rest with
    | nil => cases run
    | cons next more =>
      rw [insert_next path children before segment next more (flat_tail flat)] at run
      rcases Outcome.bind_eq_error_iff.mp run with enter | ⟨inner, _, run⟩
      · cases selects : Path.isSelector next with
        | true => exact family_of_asElements (by simpa only [selects, if_true] using enter)
        | false =>
          exact family_of_asFields
            (by simpa only [selects, Bool.false_eq_true, if_false] using enter)
      · rcases Outcome.bind_eq_error_iff.mp run with step | ⟨grown, _, run⟩
        · exact ih (flat_tail flat) step
        · cases run

mutual

/-- Only a conflict keeps two grants from being merged. -/
theorem family_of_merge {place : List String} {target : Option Grant} :
    ∀ {g : Grant}, merge place g target = .error fault → fault.family = .conflict
  | .node .whole _, run => by cases run
  | .node .fields wider, run => by
    rcases Outcome.bind_eq_error_iff.mp run with enter | ⟨inner, _, run⟩
    · exact family_of_asFields enter
    · rcases Outcome.bind_eq_error_iff.mp run with step | ⟨merged, _, run⟩
      · exact family_of_mergeChildren step
      · cases run
  | .node .elements wider, run => by
    rcases Outcome.bind_eq_error_iff.mp run with enter | ⟨inner, _, run⟩
    · exact family_of_asElements enter
    · rcases Outcome.bind_eq_error_iff.mp run with step | ⟨merged, _, run⟩
      · exact family_of_mergeChildren step
      · cases run

theorem family_of_mergeChildren {place : List String} {children : List (String × Grant)} :
    ∀ {wider : List (String × Grant)},
      mergeChildren place wider children = .error fault → fault.family = .conflict
  | [], run => by cases run
  | (key, g) :: rest, run => by
    rcases Outcome.bind_eq_error_iff.mp run with first | ⟨widened, _, run⟩
    · exact family_of_merge first
    · exact family_of_mergeChildren run

end

theorem family_of_spread {place : List String}
    (run : spread place children = .error fault) : fault.family = .conflict := by
  cases found : Keyed.find? children Path.wildcard with
  | none =>
    simp only [spread, found] at run
    cases run
  | some every =>
    simp only [spread, found] at run
    obtain ⟨entry, _, step⟩ := Outcome.exists_of_mapM_eq_error run
    by_cases all : entry.1 = Path.wildcard
    · rw [if_pos all] at step
      cases step
    · rw [if_neg all] at step
      exact family_of_merge (Outcome.map_eq_error_iff.mp step)

theorem family_of_closeTo {depth : Nat} :
    ∀ {place : List String} {children : List (String × Grant)},
      closeTo depth place children = .error fault → fault.family = .conflict := by
  induction depth with
  | zero => intro _ _ run; cases run
  | succ depth ih =>
    intro place children run
    rw [closeTo_succ] at run
    obtain ⟨entry, _, step⟩ := Outcome.exists_of_mapM_eq_error run
    rcases Outcome.bind_eq_error_iff.mp step with opened | ⟨inner, _, step⟩
    · split at opened
      · exact family_of_spread opened
      · cases opened
    · rcases Outcome.bind_eq_error_iff.mp step with deeper | ⟨closed, _, step⟩
      · exact ih deeper
      · cases step

end Grant

namespace GrantTree

open PathSet Grant

variable {limit : Int} {texts : List String}

theorem foldlM_grow_exists
    (flat : ∀ text ∈ texts, Path.hasNestedSelectors (Path.segments text) = false) :
    ∀ {S : PathSet} {children : List (String × Grant)},
      Branches below (below S) (below S) children →
      (∀ k, Unmixed below (below (S ∪ pathSet texts) k)) →
      ∃ out, texts.foldlM grow children = .ok out := by
  induction texts with
  | nil => exact fun _ _ => ⟨_, rfl⟩
  | cons text rest ih =>
    intro S children h unmixed
    rw [pathSet_cons, ← Set.union_assoc] at unmixed
    have plain := flat text (List.mem_cons_self ..)
    obtain ⟨next, step⟩ := insert_exists text [] plain h fun k =>
      (unmixed k).mono below_mono (below_mono Set.subset_union_left k)
    have added := insert_branches (Path.segments_ne_nil text) plain h step
    obtain ⟨out, run⟩ := ih (fun other inside => flat other (List.mem_cons_of_mem _ inside))
      added unmixed
    exact ⟨out, by rw [List.foldlM_cons]; exact Outcome.bind_eq_ok_iff.mpr ⟨next, step, run⟩⟩

/-- **Which lists compile.** A list of texts compiles if each is a path and their paths are
unmixed below every segment that they begin with, and else it does not. -/
theorem compile_exists_iff :
    (∃ tree, compile limit (texts.map Value.text) = .ok tree) ↔
      (∀ text ∈ texts, Path.WellFormed limit (Path.segments text)) ∧
        ∀ k, Unmixed through (below (pathSet texts) k) := by
  constructor
  · rintro ⟨tree, run⟩
    refine ⟨(compile_eq_ok_iff.mp run).1, fun k => ?_⟩
    have branches := compile_branches run
    cases found : Keyed.find? tree.children k with
    | none =>
      rw [branches.rests_eq_empty found]
      exact unmixed_empty
    | some g => exact unmixed_of_stands (branches.stands k g found)
  · rintro ⟨formed, unmixed⟩
    have flat : ∀ text ∈ texts, Path.hasNestedSelectors (Path.segments text) = false :=
      fun text inside => (formed text inside).flat
    obtain ⟨grown, run⟩ := foldlM_grow_exists flat Found.branches_nil fun k => by
      rw [Set.empty_union]
      exact (unmixed k).before
    have all := foldlM_grow_branches flat Found.branches_nil run
    rw [Set.empty_union] at all
    obtain ⟨closed, shut⟩ := closeTo_exists (childrenHeight grown) [] all unmixed
    exact ⟨_, compile_eq_ok_iff.mpr ⟨formed, grown, closed, run, shut, rfl⟩⟩

theorem family_of_foldlM_addPath {fault : PathFault}
    (formed : ∀ text ∈ texts, Path.WellFormed limit (Path.segments text)) :
    ∀ {children : List (String × Grant)},
      (texts.map Value.text).foldlM (addPath limit) children = .error fault →
      fault.family = .conflict := by
  induction texts with
  | nil => intro _ run; cases run
  | cons text rest ih =>
    intro children run
    have plain := formed text (List.mem_cons_self ..)
    rw [List.map_cons, List.foldlM_cons] at run
    rcases Outcome.bind_eq_error_iff.mp run with added | ⟨next, _, run⟩
    · rcases Outcome.bind_eq_error_iff.mp added with given | ⟨parts, given, step⟩
      · rw [Path.read_eq_ok_iff.mpr ⟨text, rfl, rfl, plain⟩] at given
        cases given
      · obtain ⟨_, same, rfl, _⟩ := Path.read_eq_ok_iff.mp given
        cases same
        exact family_of_insert plain.flat step
    · exact ih (fun other inside => formed other (List.mem_cons_of_mem _ inside)) run

/-- Well-formed paths that do not compile are in conflict with each other. -/
theorem family_of_compile {fault : PathFault}
    (formed : ∀ text ∈ texts, Path.WellFormed limit (Path.segments text))
    (run : compile limit (texts.map Value.text) = .error fault) : fault.family = .conflict := by
  rcases Outcome.bind_eq_error_iff.mp run with grown | ⟨children, _, run⟩
  · exact family_of_foldlM_addPath formed grown
  · rcases Outcome.bind_eq_error_iff.mp run with shut | ⟨closed, _, run⟩
    · exact family_of_closeTo shut
    · cases run

end GrantTree
end Permit
