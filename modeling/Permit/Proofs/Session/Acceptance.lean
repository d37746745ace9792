import Permit.Proofs.Grant.Acceptance
import Permit.Proofs.Path.Clash
import Permit.Proofs.Session.Compilation

namespace Permit

namespace GrantTree

/-- **Acceptance, said of the paths.** A list compiles if its paths are well formed and no
two of them clash, and else it does not. -/
theorem compile_exists_iff_consistent {limit : Int} {texts : List String} :
    (∃ tree, compile limit (texts.map Value.text) = .ok tree) ↔
      (∀ text ∈ texts, Path.WellFormed limit (Path.segments text)) ∧
        Path.Consistent (texts.map Path.segments) := by
  rw [compile_exists_iff]
  refine and_congr_right fun formed => ?_
  refine PathSet.unmixed_iff_not_clash fun parts inside => ?_
  obtain ⟨text, given, rfl⟩ := List.mem_map.mp inside
  exact (formed text given).named

end GrantTree

namespace Session

open Permit.Action

variable {s s' : Session} {texts : List String}

/-- Every kept tree is the one that its paths compile to under the limit in force. -/
def UpToDate (s : Session) : Prop :=
  ∀ entry ∈ s.cache.entries,
    GrantTree.compile s.settings.maxPathSegments (entry.paths.map .text) = .ok entry.tree

theorem upToDate_of_empty (h : s.cache.entries = []) : s.UpToDate := by
  intro entry inside
  rw [h] at inside
  cases inside

/-- What is kept makes no difference to an up-to-date session. -/
theorem treeOf_texts (h : s.UpToDate) (texts : List String) :
    treeOf s (texts.map .text) =
      GrantTree.compile s.settings.maxPathSegments (texts.map .text) := by
  simp only [treeOf, pathTexts?_texts, Option.bind_some]
  cases found : s.cache.find? texts with
  | none => rfl
  | some entry =>
    have kept := h entry (List.mem_of_find?_eq_some found)
    rw [paths_of_find? found] at kept
    exact kept.symm

/-- Compiling a list of texts ends with its tree, or with the cause why it has none. -/
theorem run_compile_cases (h : s.UpToDate) (texts : List String) :
    (∃ tree compiled s', GrantTree.compile s.settings.maxPathSegments (texts.map .text) = .ok tree ∧
        compiled.tree = tree ∧ (compile (.texts texts)).run s = (.ok compiled, s')) ∨
      ∃ cause s', GrantTree.compile s.settings.maxPathSegments (texts.map .text) = .error cause ∧
        (compile (.texts texts)).run s = (.error (.path cause), s') := by
  have tree := treeOf_texts h texts
  rw [run_compile_texts]
  cases built : GrantTree.compile s.settings.maxPathSegments (texts.map .text) with
  | ok t =>
    obtain ⟨compiled, same, s', run, _⟩ := ends_compileItems_ok (tree.trans built)
    exact .inl ⟨t, compiled, s', rfl, same, run⟩
  | error cause =>
    obtain ⟨s', run, _⟩ := ends_compileItems_error (tree.trans built)
    exact .inr ⟨cause, s', rfl, run⟩

theorem compile_ok_iff (h : s.UpToDate) (texts : List String) :
    (∃ compiled s', (compile (.texts texts)).run s = (.ok compiled, s')) ↔
      ∃ tree, GrantTree.compile s.settings.maxPathSegments (texts.map .text) = .ok tree := by
  rcases run_compile_cases h texts with
    ⟨tree, compiled, s', built, _, run⟩ | ⟨cause, s', built, run⟩
  · exact iff_of_true ⟨compiled, s', run⟩ ⟨tree, built⟩
  · refine iff_of_false ?_ ?_
    · rintro ⟨compiled, s'', other⟩
      cases run.symm.trans other
    · rintro ⟨tree, other⟩
      cases built.symm.trans other

/-- **Accepted lists of paths.** A list of texts is compiled if all of them are well-formed
paths and no two clash; if not, compiling it ends in the cause, which for well-formed paths
is a conflict. -/
theorem compile_ok_iff_consistent (h : s.UpToDate) (texts : List String) :
    ((∃ compiled s', (compile (.texts texts)).run s = (.ok compiled, s')) ↔
      (∀ text ∈ texts, Path.WellFormed s.settings.maxPathSegments (Path.segments text)) ∧
        Path.Consistent (texts.map Path.segments)) ∧
    ∀ fault s', (compile (.texts texts)).run s = (.error fault, s') →
      ∃ cause, fault = .path cause ∧
        ((∀ text ∈ texts, Path.WellFormed s.settings.maxPathSegments (Path.segments text)) →
          cause.family = .conflict) := by
  refine ⟨(compile_ok_iff h texts).trans GrantTree.compile_exists_iff_consistent, ?_⟩
  intro fault s' run
  rcases run_compile_cases h texts with
    ⟨tree, compiled, s'', _, _, other⟩ | ⟨cause, s'', built, other⟩
  · cases run.symm.trans other
  · cases run.symm.trans other
    exact ⟨cause, rfl, fun formed => GrantTree.family_of_compile formed built⟩

/-- Two paths that clash only below elements, each with `*` where the other has an index. -/
theorem compile_ok_iff_consistent_clash :
    UpToDate {} ∧
      Path.Clash (Path.segments "a.0.b.*.c.1") (Path.segments "a.*.b.2.c.d") ∧
      ∃ cause s', (compile (.texts ["a.*.b.2.c.d", "a.0.b.*.c.1"])).run {} =
        (.error (.path cause), s') ∧ cause.family = .conflict := by
  have current : UpToDate {} := upToDate_of_empty rfl
  have first : Path.segments "a.0.b.*.c.1" = ["a", "0", "b", "*", "c", "1"] := by decide +kernel
  have second : Path.segments "a.*.b.2.c.d" = ["a", "*", "b", "2", "c", "d"] := by decide +kernel
  have clash : Path.Clash (Path.segments "a.0.b.*.c.1") (Path.segments "a.*.b.2.c.d") := by
    rw [first, second]
    exact ⟨5, by decide, by decide +kernel, ⟨"1", rfl, by decide +kernel⟩,
      "d", rfl, by decide +kernel⟩
  have formed : ∀ text ∈ ["a.*.b.2.c.d", "a.0.b.*.c.1"],
      Path.WellFormed ({} : Session).settings.maxPathSegments (Path.segments text) := by
    intro text inside
    simp only [List.mem_cons, List.not_mem_nil, or_false] at inside
    rcases inside with rfl | rfl
    · exact ⟨by decide +kernel, by decide +kernel, by decide +kernel, by decide +kernel⟩
    · exact ⟨by decide +kernel, by decide +kernel, by decide +kernel, by decide +kernel⟩
  obtain ⟨accepted, refused⟩ := compile_ok_iff_consistent current ["a.*.b.2.c.d", "a.0.b.*.c.1"]
  cases run : (compile (.texts ["a.*.b.2.c.d", "a.0.b.*.c.1"])).run {} with
  | mk outcome s' =>
    cases outcome with
    | ok compiled =>
      have consistent := (accepted.mp ⟨compiled, s', run⟩).2
      exact absurd clash (consistent _ (by simp) _ (by simp))
    | error fault =>
      obtain ⟨cause, rfl, conflict⟩ := refused fault s' run
      exact ⟨current, clash, cause, s', rfl, conflict formed⟩

end Session
end Permit
