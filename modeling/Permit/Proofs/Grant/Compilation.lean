import Permit.Grant.Compile
import Permit.Proofs.Grant.Insertion
import Permit.Proofs.Grant.Spreading
import Permit.Proofs.Path.WellFormed

namespace Permit.GrantTree

open PathSet Grant

def pathSet (texts : List String) : PathSet := {parts | parts ∈ texts.map Path.segments}

theorem pathSet_cons (text : String) (rest : List String) :
    pathSet (text :: rest) = {Path.segments text} ∪ pathSet rest := by
  ext parts
  simp [pathSet, eq_comm]

/-- Adds the segments of a text to grants. -/
def grow (children : List (String × Grant)) (text : String) :
    Except PathFault (List (String × Grant)) :=
  Grant.insert text children [] (Path.segments text)

theorem addPath_eq_ok_iff {limit : Int} {children out : List (String × Grant)} {text : String} :
    addPath limit children (.text text) = .ok out ↔
      Path.WellFormed limit (Path.segments text) ∧ grow children text = .ok out := by
  constructor
  · intro h
    obtain ⟨parts, given, step⟩ := Outcome.bind_eq_ok_iff.mp h
    obtain ⟨_, same, rfl, formed⟩ := Path.read_eq_ok_iff.mp given
    cases same
    rw [Path.ofSegments_segments] at step
    exact ⟨formed, step⟩
  · rintro ⟨formed, step⟩
    refine Outcome.bind_eq_ok_iff.mpr ⟨_, Path.read_eq_ok_iff.mpr ⟨text, rfl, rfl, formed⟩, ?_⟩
    rw [Path.ofSegments_segments]
    exact step

theorem foldlM_addPath_eq_ok_iff {limit : Int} {texts : List String} :
    ∀ {children out : List (String × Grant)},
      (texts.map Value.text).foldlM (addPath limit) children = .ok out ↔
        (∀ text ∈ texts, Path.WellFormed limit (Path.segments text)) ∧
          texts.foldlM grow children = .ok out := by
  induction texts with
  | nil => intro children out; simp
  | cons text rest ih =>
    intro children out
    simp only [List.map_cons, List.foldlM_cons, Outcome.bind_eq_ok_iff, addPath_eq_ok_iff, ih,
      List.forall_mem_cons]
    constructor
    · rintro ⟨next, ⟨formed, step⟩, others, run⟩
      exact ⟨⟨formed, others⟩, next, step, run⟩
    · rintro ⟨⟨formed, others⟩, next, step, run⟩
      exact ⟨next, ⟨formed, step⟩, others, run⟩

/-- A list of texts compiles if each is a path and the grants that come of adding them
one after the other can be closed. -/
theorem compile_eq_ok_iff {limit : Int} {texts : List String} {tree : GrantTree} :
    compile limit (texts.map Value.text) = .ok tree ↔
      (∀ text ∈ texts, Path.WellFormed limit (Path.segments text)) ∧
      ∃ grown closed, texts.foldlM grow [] = .ok grown ∧ Grant.close grown = .ok closed ∧
        tree = ⟨.node .fields closed, textsOf (texts.map Value.text)⟩ := by
  unfold compile
  rw [Outcome.bind_eq_ok_iff]
  constructor
  · rintro ⟨grown, run, rest⟩
    obtain ⟨closed, shut, same⟩ := Outcome.bind_eq_ok_iff.mp rest
    obtain ⟨formed, run⟩ := foldlM_addPath_eq_ok_iff.mp run
    exact ⟨formed, grown, closed, run, shut, (Except.ok.inj same).symm⟩
  · rintro ⟨formed, grown, closed, run, shut, rfl⟩
    exact ⟨grown, foldlM_addPath_eq_ok_iff.mpr ⟨formed, run⟩,
      Outcome.bind_eq_ok_iff.mpr ⟨closed, shut, rfl⟩⟩

theorem compile_unique {limit limit' : Int} {paths : List Value} {tree tree' : GrantTree}
    (h : compile limit paths = .ok tree) (h' : compile limit' paths = .ok tree') :
    tree = tree' := by
  rw [← map_textsOf h, compile_eq_ok_iff] at h
  rw [← map_textsOf h', compile_eq_ok_iff] at h'
  obtain ⟨_, grown, closed, run, shut, rfl⟩ := h
  obtain ⟨_, grown', closed', run', shut', rfl⟩ := h'
  obtain rfl : grown = grown' := Except.ok.inj (run.symm.trans run')
  obtain rfl : closed = closed' := Except.ok.inj (shut.symm.trans shut')
  rfl

/-- The first text whose segments are more than a limit. -/
def firstTooLong? (limit : Int) (texts : List String) : Option String :=
  texts.find? fun text => decide (limit < (Path.segments text).length)

/-- What a list ends in at a text that is too long. -/
def tooLongAt (limit : Int) (text : String) : PathFault :=
  .tooLong text (Path.segments text).length limit

theorem foldlM_addPath_other_limit {limit : Int} (limit' : Int) {texts : List String} :
    ∀ {children out : List (String × Grant)},
      (texts.map Value.text).foldlM (addPath limit) children = .ok out →
      (texts.map Value.text).foldlM (addPath limit') children =
        (firstTooLong? limit' texts).elim (.ok out) fun text =>
          .error (tooLongAt limit' text) := by
  induction texts with
  | nil =>
    intro children out run
    exact run
  | cons text rest ih =>
    intro children out run
    rw [List.map_cons, List.foldlM_cons] at run
    obtain ⟨next, step, run⟩ := Outcome.bind_eq_ok_iff.mp run
    obtain ⟨formed, grown⟩ := addPath_eq_ok_iff.mp step
    rw [List.map_cons, List.foldlM_cons]
    by_cases long : limit' < (Path.segments text).length
    · have refused : addPath limit' children (.text text) = .error (tooLongAt limit' text) :=
        Outcome.bind_eq_error_iff.mpr (.inl (Path.readText_tooLong formed.filled long))
      have found : firstTooLong? limit' (text :: rest) = some text :=
        List.find?_cons_of_pos (by simpa using long)
      rw [refused, found]
      rfl
    · have taken : addPath limit' children (.text text) = .ok next :=
        addPath_eq_ok_iff.mpr ⟨formed.under (Int.not_lt.mp long), grown⟩
      have passed : firstTooLong? limit' (text :: rest) = firstTooLong? limit' rest :=
        List.find?_cons_of_neg (by simpa using long)
      rw [taken, passed]
      exact ih run

/-- **Another limit.** A list that compiles has the same tree under every limit that its paths
fit, and ends under every other at the first path that does not. -/
theorem compile_other_limit {limit : Int} (limit' : Int) {texts : List String} {tree : GrantTree}
    (h : compile limit (texts.map Value.text) = .ok tree) :
    compile limit' (texts.map Value.text) =
      (firstTooLong? limit' texts).elim (.ok tree) fun text =>
        .error (tooLongAt limit' text) := by
  obtain ⟨grown, run, rest⟩ := Outcome.bind_eq_ok_iff.mp h
  unfold compile
  rw [foldlM_addPath_other_limit limit' run]
  cases firstTooLong? limit' texts with
  | none => exact rest
  | some text => rfl

theorem foldlM_grow_branches {texts : List String}
    (flat : ∀ text ∈ texts, Path.hasNestedSelectors (Path.segments text) = false) :
    ∀ {S : PathSet} {children out : List (String × Grant)},
      Branches below (below S) (below S) children → texts.foldlM grow children = .ok out →
      Branches below (below (S ∪ pathSet texts)) (below (S ∪ pathSet texts)) out := by
  induction texts with
  | nil =>
    intro S children out h run
    cases run
    have none : S ∪ pathSet [] = S := by
      ext parts
      simp [pathSet]
    exact none.symm ▸ h
  | cons text rest ih =>
    intro S children out h run
    rw [List.foldlM_cons] at run
    obtain ⟨next, step, run⟩ := Outcome.bind_eq_ok_iff.mp run
    have added := insert_branches (Path.segments_ne_nil text)
      (flat text (List.mem_cons_self ..)) h step
    have all := ih (fun other inside => flat other (List.mem_cons_of_mem _ inside)) added run
    rw [pathSet_cons, ← Set.union_assoc]
    exact all

/-- **Compiling.** The top-level grants of a compiled tree stand for the set of its paths. -/
theorem compile_branches {limit : Int} {texts : List String} {tree : GrantTree}
    (h : compile limit (texts.map Value.text) = .ok tree) :
    Branches through (below (pathSet texts)) (below (pathSet texts)) tree.children := by
  obtain ⟨formed, grown, closed, run, shut, rfl⟩ := compile_eq_ok_iff.mp h
  have all := foldlM_grow_branches (fun text inside => (formed text inside).flat)
    Found.branches_nil run
  rw [Set.empty_union] at all
  exact close_branches all shut

end Permit.GrantTree
