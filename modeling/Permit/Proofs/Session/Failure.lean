import Permit.Proofs.Session.Acceptance

/-!
How compiling a value ends if there is no tree. A value that lists nothing is refused before
anything else. Where trees are kept, the items that a value lists must all be such that they can
be keys, which is seen before any of them is read as a path.

* `GrantTree.compile_not_text`: the first item that is no path decides, if the texts before it
  agree;
* `compile_ends`: which values are refused for what, and what is counted; an item that cannot be
  a key is no path fault and is not counted (`compile_unkeyable`), unless no trees are kept.
-/
namespace Permit

namespace GrantTree

/-- A list ends at an item that is no text or an empty one, if the texts before it compile. -/
theorem compile_not_text {limit : Int} {before : List String} {bad : Value}
    (formed : ∀ text ∈ before, Path.WellFormed limit (Path.segments text))
    (consistent : Path.Consistent (before.map Path.segments))
    (empty : ∀ text, bad = .text text → text = "") (after : List Value) :
    compile limit (before.map .text ++ bad :: after) = .error (.notText bad) := by
  obtain ⟨tree, built⟩ := compile_exists_iff_consistent.mpr ⟨formed, consistent⟩
  obtain ⟨children, run, _⟩ := Outcome.bind_eq_ok_iff.mp built
  have refused : addPath limit children bad = .error (.notText bad) := by
    cases bad with
    | text text =>
      obtain rfl := empty text rfl
      rfl
    | _ => rfl
  rw [compile, List.foldlM_append, run]
  simp only [bind, Except.bind, List.foldlM_cons, refused]

/-- Every item of a list that compiles is a text, and none is empty. -/
theorem text_of_mem_compile {limit : Int} {paths : List Value} {tree : GrantTree} {path : Value}
    (h : compile limit paths = .ok tree) (inside : path ∈ paths) :
    ∃ text, path = .text text ∧ text ≠ "" := by
  have texts := map_textsOf h
  rw [← texts] at h inside
  obtain ⟨text, among, rfl⟩ := List.mem_map.mp inside
  refine ⟨text, rfl, ?_⟩
  rintro rfl
  have filled := ((compile_eq_ok_iff.mp h).1 "" among).filled
  exact filled (by decide)

end GrantTree

namespace Session

open Permit.Action

variable {paths : Value}

theorem pathItems_of_unlisted (unlisted : (∃ text, paths = .text text) ∨ paths.elements? = none) :
    pathItems paths = .error (Fault.ofArgument pathsExpectation paths) := by
  rcases unlisted with ⟨text, rfl⟩ | none
  · rfl
  · unfold pathItems
    split
    next => rfl
    next => rw [none]

theorem pathItems_of_listed {items : List Value} (listed : ∀ text, paths ≠ .text text)
    (elements : paths.elements? = some items) : pathItems paths = .ok items := by
  unfold pathItems
  split
  next text => exact absurd rfl (listed text)
  next => rw [elements]

theorem unkeyable?_eq_none_iff {capacity : Nat} {items : List Value} :
    unkeyable? capacity items = none ↔ capacity = 0 ∨ Value.unkeyableItem? items = none := by
  by_cases none : capacity = 0
  · simp [unkeyable?, none]
  · simp [unkeyable?, none]

/-- What compiling a value ends with, if it lists items and none stands in the way of a key. -/
theorem answered_compile {items : List Value} (given : pathItems paths = .ok items)
    (s : Session) (keyed : unkeyable? s.cache.capacity items = none) :
    ∃ outcome s', (compile paths).run s = (outcome, s') ∧ Answered s items outcome s' := by
  cases ended : (compileItems items).run s with
  | mk outcome s' =>
    refine ⟨outcome, s', ?_, answered_compileItems ended⟩
    simp only [run_compile, given, keyed, ended]

/-- **How compiling ends.** A text and a value without elements are refused as arguments, or
cannot be quoted for that; nothing is counted. If there is room for trees and an item of a value
cannot be a key, compiling ends there, before any item is looked at, and nothing is counted.
Every other value has a tree or a cause, which is counted once as an error. Of its items, the
first that is no text or an empty one is the cause if the texts before it are well formed and
agree. -/
theorem compile_ends (s : Session) (paths : Value) :
    ((∃ text, paths = .text text) ∨ paths.elements? = none →
      (∀ shown, paths.quote = .ok shown → (compile paths).run s =
        (.error (.argument ⟨pathsExpectation, paths.typeName, shown⟩), s)) ∧
      ∀ fault, paths.quote = .error fault → (compile paths).run s = (.error (.numeral fault), s)) ∧
    ∀ items, (∀ text, paths ≠ .text text) → paths.elements? = some items →
      (∀ typeName, 0 < s.cache.capacity → Value.unkeyableItem? items = some typeName →
        (compile paths).run s = (.error (.unkeyable typeName), s)) ∧
      (s.cache.capacity = 0 ∨ Value.unkeyableItem? items = none →
        (∃ compiled s', (compile paths).run s = (.ok compiled, s')) ∨
        ∃ cause s', (compile paths).run s = (.error (.path cause), s') ∧
          s'.metrics.count = s.metrics.count + compilationCount s.settings "error") ∧
      ∀ (before : List String) (bad : Value) (after : List Value),
        s.cache.capacity = 0 ∨ Value.unkeyableItem? items = none →
        items = before.map .text ++ bad :: after →
        (∀ text ∈ before, Path.WellFormed s.settings.maxPathSegments (Path.segments text)) →
        Path.Consistent (before.map Path.segments) → (∀ text, bad = .text text → text = "") →
        ∃ s', (compile paths).run s = (.error (.path (.notText bad)), s') ∧
          s'.metrics.count = s.metrics.count + compilationCount s.settings "error" := by
  refine ⟨fun unlisted => ?_, fun items listed elements =>
    ⟨fun typeName room unkeyable => ?_, fun keyed => ?_,
      fun before bad after keyed same formed consistent empty => ?_⟩⟩
  · rw [run_compile, pathItems_of_unlisted unlisted]
    refine ⟨fun shown quoted => ?_, fun fault failed => ?_⟩
    · simp only [Fault.ofArgument, ArgumentFault.of, quoted, bind, Except.bind, pure, Except.pure]
    · simp only [Fault.ofArgument, ArgumentFault.of, failed, bind, Except.bind]
  · have refused : unkeyable? s.cache.capacity items = some typeName :=
      (if_neg (Nat.ne_of_gt room)).trans unkeyable
    simp only [run_compile, pathItems_of_listed listed elements, refused]
  · have given := pathItems_of_listed listed elements
    obtain ⟨outcome, s', run, answered⟩ := answered_compile given s (unkeyable?_eq_none_iff.mpr keyed)
    cases answered with
    | kept | built => exact .inl ⟨_, _, run⟩
    | failed _ _ _ _ counted => exact .inr ⟨_, s', run, counted⟩
  · have given := pathItems_of_listed listed elements
    obtain ⟨outcome, s', run, answered⟩ := answered_compile given s (unkeyable?_eq_none_iff.mpr keyed)
    have refused := GrantTree.compile_not_text formed consistent empty after
    rw [← same] at refused
    cases answered with
    | @kept entry found =>
      -- no list with such an item was ever compiled, so none is kept
      obtain ⟨limit, compiled⟩ := entry.compiled
      rw [← (kept_of_found found).1] at compiled
      have inside : bad ∈ items := by simp [same]
      obtain ⟨text, rfl, filled⟩ := GrantTree.text_of_mem_compile compiled inside
      exact absurd (empty text rfl) filled
    | built _ compiled => cases refused.symm.trans compiled
    | failed _ failed _ _ counted =>
      obtain rfl := Except.error.inj (refused.symm.trans failed)
      exact ⟨s', run, counted⟩

/-- A number after two paths, in a sequence that cannot be changed. -/
theorem compile_ends_number :
    ∃ s', (compile (.tuple [.text "a.*", .text "b", .int 7, .text ".."])).run {} =
        (.error (.path (.notText (.int 7))), s') ∧
      s'.metrics.count (.compilations "error") = 1 := by
  have agree := (@GrantTree.compile_exists_iff_consistent 32 ["a.*", "b"]).mp ⟨_, rfl⟩
  obtain ⟨s', run, counted⟩ := ((compile_ends {} (.tuple
    [.text "a.*", .text "b", .int 7, .text ".."])).2 _ (by simp) rfl).2.2
    ["a.*", "b"] (.int 7) [.text ".."] (.inr rfl) rfl agree.1 agree.2 (by simp)
  refine ⟨s', run, ?_⟩
  rw [counted]
  rfl

/-- An item that is a list cannot be a key: it is no path fault, and it is not counted. -/
theorem compile_unkeyable :
    (compile (.list [.list [.text "a"]])).run {} = (.error (.unkeyable "list"), {}) := rfl

/-- With room for no tree the same item is a path fault like any other. -/
example : ((compile (.list [.list [.text "a"]])).run { cache := { capacity := 0 } }).1 =
    .error (.path (.notText (.list [.text "a"]))) := rfl

end Session
end Permit
