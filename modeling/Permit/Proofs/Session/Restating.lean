import Permit.Proofs.Grant.Alike
import Permit.Proofs.Session.Acceptance

namespace Permit

namespace Path

inductive Restated : List String → List String → Prop where
  | reordered {paths others : List String} : paths.Perm others → Restated paths others
  | repeated {paths : List String} {path : String} : path ∈ paths → Restated paths (path :: paths)
  /-- A beginning of a path, of one segment or more, is listed as well. -/
  | shortened {paths : List String} {path : String} {start : List String} :
      path ∈ paths → start ≠ [] → start <+: segments path →
      Restated paths (ofSegments start :: paths)
  | trans {paths others more : List String} :
      Restated paths others → Restated others more → Restated paths more

variable {paths others : List String}

theorem segments_ofSegments_beginning {path : String} {start : List String} (some : start ≠ [])
    (begins : start <+: segments path) : segments (ofSegments start) = start :=
  segments_ofSegments some fun _ inside => dotFree_of_mem_segments (begins.subset inside)

/-- Every path that is listed anew was there or is a beginning of one that was. -/
theorem Restated.covers (h : Restated paths others) :
    (GrantTree.pathSet paths).Covers (GrantTree.pathSet others) := by
  induction h with
  | @reordered paths others same =>
    have equal : GrantTree.pathSet paths = GrantTree.pathSet others := by
      ext parts
      exact (same.map segments).mem_iff
    exact equal ▸ .refl _
  | @repeated paths path inside =>
    refine ⟨fun parts there => List.mem_cons_of_mem _ there, fun parts there => ?_⟩
    rcases List.mem_cons.mp there with rfl | there
    · exact ⟨_, List.mem_map_of_mem inside, List.prefix_rfl⟩
    · exact ⟨parts, there, List.prefix_rfl⟩
  | @shortened paths path start inside some begins =>
    refine ⟨fun parts there => List.mem_cons_of_mem _ there, fun parts there => ?_⟩
    rcases List.mem_cons.mp there with rfl | there
    · rw [segments_ofSegments_beginning some begins]
      exact ⟨_, List.mem_map_of_mem inside, begins⟩
    · exact ⟨parts, there, List.prefix_rfl⟩
  | trans _ _ ih ih' => exact ih.trans ih'

theorem Restated.wellFormed_iff (h : Restated paths others) (limit : Int) :
    (∀ path ∈ paths, WellFormed limit (segments path)) ↔
      ∀ path ∈ others, WellFormed limit (segments path) := by
  have covers := h.covers
  constructor
  · intro formed path inside
    obtain ⟨_, kept, begins⟩ := covers.longer _ (List.mem_map_of_mem inside)
    obtain ⟨long, there, rfl⟩ := List.mem_map.mp kept
    exact (formed long there).beginning (segments_ne_nil path) begins
  · intro formed path inside
    obtain ⟨other, there, same⟩ := List.mem_map.mp (covers.subset (List.mem_map_of_mem inside))
    exact same ▸ formed other there

end Path

namespace GrantTree

/-- Lists that state the same paths compile together. -/
theorem compile_exists_restated {limit : Int} {texts others : List String}
    (h : Path.Restated texts others) :
    (∃ tree, compile limit (texts.map Value.text) = .ok tree) ↔
      ∃ tree, compile limit (others.map Value.text) = .ok tree := by
  rw [compile_exists_iff, compile_exists_iff, h.wellFormed_iff limit]
  refine and_congr_right fun _ => forall_congr' fun key => ?_
  exact (h.covers.below key).unmixed_iff

end GrantTree

namespace Session

open Permit.Action

/-- **Restating paths.** Of two lists that state the same paths, a session compiles both or
neither; and whatever trees they have, in one session or in different ones, are the same but
for the order of children. -/
theorem compile_restated {s : Session} {texts others : List String} (h : s.UpToDate)
    (restated : Path.Restated texts others) :
    ((∃ compiled s', (compile (.texts texts)).run s = (.ok compiled, s')) ↔
      ∃ compiled s', (compile (.texts others)).run s = (.ok compiled, s')) ∧
    ∀ (s₁ s₁' s₂ s₂' : Session) (first second : Compiled),
      (compile (.texts texts)).run s₁ = (.ok first, s₁') →
      (compile (.texts others)).run s₂ = (.ok second, s₂') →
      first.tree.root.Alike second.tree.root := by
  constructor
  · rw [compile_ok_iff h, compile_ok_iff h]
    exact GrantTree.compile_exists_restated restated
  · intro s₁ s₁' s₂ s₂' first second run run'
    obtain ⟨items, listed, found⟩ := treeOf_eq_of_compile run
    obtain ⟨items', listed', found'⟩ := treeOf_eq_of_compile run'
    obtain ⟨limit, built⟩ := treeOf_compiled found
    obtain ⟨limit', built'⟩ := treeOf_compiled found'
    obtain rfl : texts.map Value.text = items := Option.some.inj listed
    obtain rfl : others.map Value.text = items' := Option.some.inj listed'
    exact GrantTree.compile_alike built built' restated.covers

/-- An index before the wildcard that is merged into it, and a beginning of a path between
the two. -/
theorem compile_restated_wildcard :
    UpToDate {} ∧ Path.Restated ["a.*.b.x", "a.0.b"] ["a.0.b", "a.*", "a.*.b.x", "a.0.b"] ∧
      ∃ first second s₁ s₂,
        (compile (.texts ["a.*.b.x", "a.0.b"])).run {} = (.ok first, s₁) ∧
        (compile (.texts ["a.0.b", "a.*", "a.*.b.x", "a.0.b"])).run {} = (.ok second, s₂) ∧
        first.tree.root.Alike second.tree.root := by
  have current : UpToDate {} := upToDate_of_empty rfl
  have start : Path.ofSegments ["a", "*"] = "a.*" := by decide +kernel
  have begins : ["a", "*"] <+: Path.segments "a.*.b.x" := by decide +kernel
  have shortened : Path.Restated ["a.*.b.x", "a.0.b"] ["a.*", "a.*.b.x", "a.0.b"] :=
    start ▸ .shortened (by simp) (by simp) begins
  have restated : Path.Restated ["a.*.b.x", "a.0.b"] ["a.0.b", "a.*", "a.*.b.x", "a.0.b"] :=
    .trans shortened (.repeated (by simp))
  have runs : ((compile (.texts ["a.*.b.x", "a.0.b"])).run ({} : Session)).1.toOption.isSome =
      true := by decide +kernel
  obtain ⟨first, s₁, run⟩ := exists_run runs
  obtain ⟨together, alike⟩ := compile_restated current restated
  obtain ⟨second, s₂, run'⟩ := together.mp ⟨first, s₁, run⟩
  exact ⟨current, restated, first, second, s₁, s₂, run, run', alike _ _ _ _ _ _ run run'⟩

end Session
end Permit
