import Permit.Proofs.Projection.Cover
import Permit.Proofs.Session.Answering

namespace Permit.Session

open Permit.Action

variable {s s' : Session} {values : List Value} {tree : GrantTree}

/-- The tree that a list of values has within a session: the one that is kept, or a new
one. -/
def treeOf (s : Session) (values : List Value) : Except PathFault GrantTree :=
  match (pathTexts? values).bind s.cache.find? with
  | some entry => .ok entry.tree
  | none => GrantTree.compile s.settings.maxPathSegments values

theorem eq_map_of_pathTexts? : ∀ {values : List Value} {texts : List String},
    pathTexts? values = some texts → values = texts.map Value.text
  | [], texts, h => by
    cases h
    rfl
  | .text first :: rest, texts, h => by
    obtain ⟨others, found, rfl⟩ := Option.map_eq_some_iff.mp h
    rw [eq_map_of_pathTexts? found]
    rfl

theorem pathTexts?_texts (texts : List String) : pathTexts? (texts.map .text) = some texts :=
  Constraint.texts?_texts texts

theorem paths_of_find? {cache : Cache} {texts : List String} {entry : Cached}
    (found : cache.find? texts = some entry) : entry.paths = texts := by
  simpa using List.find?_some found

theorem kept_of_found {entry : Cached}
    (found : (pathTexts? values).bind s.cache.find? = some entry) :
    values = entry.paths.map .text ∧ entry ∈ s.cache.entries := by
  obtain ⟨texts, given, listed⟩ := Option.bind_eq_some_iff.mp found
  rw [paths_of_find? listed]
  exact ⟨eq_map_of_pathTexts? given, List.mem_of_find?_eq_some listed⟩

/-- A tree that a session has for a list is the one that the list compiles to. -/
theorem treeOf_compiled (h : treeOf s values = .ok tree) :
    ∃ limit, GrantTree.compile limit values = .ok tree := by
  cases found : (pathTexts? values).bind s.cache.find? with
  | none =>
    simp only [treeOf, found] at h
    exact ⟨_, h⟩
  | some entry =>
    simp only [treeOf, found, Except.ok.injEq] at h
    rw [(kept_of_found found).1, ← h]
    exact entry.compiled

/-- The answer to a list is its tree within the session, or the cause why it has none. -/
theorem Answered.treeOf_eq {outcome : Except Fault Compiled} (h : Answered s values outcome s') :
    outcome.map (·.tree) = (treeOf s values).mapError .path := by
  cases h with
  | kept found => rw [treeOf, found]; rfl
  | built missed compiled => rw [treeOf, missed, compiled]; rfl
  | failed missed failed => rw [treeOf, missed, failed]; rfl

/-- Compiling a list ends with its tree within the session, or with the cause. -/
theorem ends_compileItems (values : List Value) (s : Session) :
    ∃ outcome, outcome.map (·.tree) = (treeOf s values).mapError .path ∧
      Ends (compileItems values) s outcome := by
  have answered : Answered s values _ _ := answered_compileItems rfl
  exact ⟨_, answered.treeOf_eq, _, rfl, answered.keeps⟩

theorem ends_compileItems_ok (h : treeOf s values = .ok tree) :
    ∃ compiled, compiled.tree = tree ∧ Ends (compileItems values) s (.ok compiled) := by
  obtain ⟨outcome, same, ends⟩ := ends_compileItems values s
  rw [h] at same
  obtain ⟨compiled, rfl, tree⟩ := Outcome.map_eq_ok_iff.mp same
  exact ⟨compiled, tree, ends⟩

theorem ends_compileItems_error {fault : PathFault} (h : treeOf s values = .error fault) :
    Ends (compileItems values) s (.error (.path fault)) := by
  obtain ⟨outcome, same, ends⟩ := ends_compileItems values s
  rw [h] at same
  obtain rfl := Outcome.map_eq_error_iff.mp same
  exact ends

theorem treeOf_eq_of_compileItems {compiled : Compiled}
    (run : (compileItems values).run s = (.ok compiled, s')) :
    treeOf s values = .ok compiled.tree := by
  have same := (answered_compileItems run).treeOf_eq
  exact Outcome.mapError_eq_ok_iff.mp same.symm

theorem elements?_of_pathItems {paths : Value} {items : List Value}
    (h : pathItems paths = .ok items) : paths.elements? = some items := by
  unfold pathItems at h
  split at h
  next => cases h
  next =>
    split at h
    next found => rw [found, Except.ok.inj h]
    next => cases h

/-- Compiling a value is compiling its items, if it lists any and none stands in the way of a key. -/
theorem run_compile (paths : Value) (s : Session) :
    (compile paths).run s =
      match pathItems paths with
      | .error fault => (.error fault, s)
      | .ok items =>
        match unkeyable? s.cache.capacity items with
        | some typeName => (.error (.unkeyable typeName), s)
        | none => (compileItems items).run s := by
  have listing : (lift (pathItems paths)).run s = (pathItems paths, s) := rfl
  have reading : (get : Action Session).run s = (.ok s, s) := rfl
  rw [compile, run_bind, listing]
  cases pathItems paths with
  | error fault => rfl
  | ok items =>
    dsimp only
    rw [run_bind, reading]
    dsimp only
    cases unkeyable? s.cache.capacity items <;> rfl

theorem unkeyable?_texts (capacity : Nat) (texts : List String) :
    unkeyable? capacity (texts.map .text) = none := by
  have keyed : Value.unkeyableItem? (texts.map .text) = none := by
    induction texts with
    | nil => rfl
    | cons text rest ih => simp only [List.map_cons, Value.unkeyableItem?, Value.unkeyable?, ih]
  rw [unkeyable?, keyed, ite_self]

theorem run_compile_texts (texts : List String) (s : Session) :
    (compile (.texts texts)).run s = (compileItems (texts.map .text)).run s := by
  have listed : pathItems (.texts texts) = .ok (texts.map .text) := rfl
  simp only [run_compile, listed, unkeyable?_texts]

theorem treeOf_eq_of_compile {paths : Value} {compiled : Compiled}
    (run : (compile paths).run s = (.ok compiled, s')) :
    ∃ items, paths.elements? = some items ∧ treeOf s items = .ok compiled.tree := by
  rw [run_compile] at run
  cases listed : pathItems paths with
  | error fault =>
    rw [listed] at run
    cases run
  | ok items =>
    simp only [listed] at run
    refine ⟨items, elements?_of_pathItems listed, ?_⟩
    split at run
    next => cases run
    next => exact treeOf_eq_of_compileItems run

/-! ### The same list again -/

theorem find?_use (cache : Cache) (entry : Cached) :
    (cache.use entry).find? entry.paths = some entry :=
  List.find?_cons_of_pos (beq_self_eq_true entry.paths)

/-- After a list has compiled, whatever has become of its tree, the list has the same one. -/
theorem treeOf_again {compiled : Compiled}
    (run : (compileItems values).run s = (.ok compiled, s')) :
    treeOf s' values = .ok compiled.tree := by
  have before := treeOf_eq_of_compileItems run
  obtain ⟨limit, built⟩ := treeOf_compiled before
  -- whatever tree the list has now, a list has but one
  suffices some : ∃ tree, treeOf s' values = .ok tree by
    obtain ⟨tree, after⟩ := some
    obtain ⟨limit', built'⟩ := treeOf_compiled after
    exact GrantTree.compile_unique built' built ▸ after
  cases kept : (pathTexts? values).bind s'.cache.find? with
  | some entry => exact ⟨entry.tree, by rw [treeOf, kept]⟩
  | none =>
    cases answered_compileItems run with
    | @kept entry found =>
      rw [(kept_of_found found).1, pathTexts?_texts, Option.bind_some, find?_use] at kept
      cases kept
    | built _ compiled keeps => exact ⟨_, by rw [treeOf, kept, keeps.settings, compiled]⟩

/-- What has compiled compiles again, to the same tree. -/
theorem compile_again {paths : Value} {compiled : Compiled}
    (run : (compile paths).run s = (.ok compiled, s')) :
    ∃ again s'', (compile paths).run s' = (.ok again, s'') ∧ again.tree = compiled.tree := by
  rw [run_compile] at run ⊢
  cases listed : pathItems paths with
  | error fault =>
    rw [listed] at run
    cases run
  | ok items =>
    simp only [listed] at run ⊢
    split at run
    next => cases run
    next keyed =>
      rw [(answered_compileItems run).capacity, keyed]
      obtain ⟨again, same, s'', run', _⟩ := ends_compileItems_ok (treeOf_again run)
      exact ⟨again, s'', run', same⟩

theorem shapeResponse_of_ne_null {content : Value} (given : content ≠ .null) (paths : Value) :
    shapeResponse paths content =
      compile paths >>= fun compiled => pure (Response.shape compiled.tree content) := by
  cases content with
  | null => exact absurd rfl given
  | _ => rfl

/-- **What compiled paths project.** Whatever compiles is a list of texts, and of any
mapping its tree keeps just what the paths in the list show; of a path that a longer one
begins with, nothing depends on it. -/
theorem compiled_project_shown {paths : Value} {compiled : Compiled}
    (compiles : (compile paths).run s = (.ok compiled, s')) :
    ∃ texts : List String, paths.elements? = some (texts.map Value.text) ∧
      (∀ entries, Shown.whole (texts.map Path.segments) (.map entries) =
        some (compiled.tree.project (.map entries))) ∧
      ∀ kept, Shown.Covers kept (texts.map Path.segments) →
        ∀ v, Shown.whole kept v = Shown.whole (texts.map Path.segments) v := by
  obtain ⟨items, elements, found⟩ := treeOf_eq_of_compile compiles
  obtain ⟨limit, built⟩ := treeOf_compiled found
  have texts := GrantTree.map_textsOf built
  refine ⟨GrantTree.textsOf items, elements.trans (congrArg some texts.symm), ?_, ?_⟩
  · intro entries
    exact GrantTree.whole_shown (texts.symm ▸ built) entries
  · intro kept covers v
    exact Shown.whole_covers covers v

/-- A position of its own beside all positions, and an element that does not fit. -/
theorem compiled_project_shown_wildcard :
    ∃ compiled s', (compile (.list [.text "a.*.x", .text "a.0.y", .text "a"])).run {} =
        (.ok compiled, s') ∧
      compiled.tree.project (.map [(.text "a", .list [
          .map [(.text "y", .int 1), (.text "z", .int 2), (.text "x", .int 3)], .int 4,
          .map [(.text "y", .int 5), (.text "x", .int 6)]])]) =
        .map [(.text "a", .list [.map [(.text "y", .int 1), (.text "x", .int 3)], .map [],
          .map [(.text "x", .int 6)]])] := by
  have ends : ((compile (.list [.text "a.*.x", .text "a.0.y", .text "a"])).run
      ({} : Session)).1.toOption.isSome = true := by decide +kernel
  obtain ⟨compiled, s', given⟩ := exists_run ends
  refine ⟨compiled, s', given, ?_⟩
  obtain ⟨texts, listed, shown, _⟩ := compiled_project_shown given
  obtain rfl : texts = ["a.*.x", "a.0.y", "a"] := by
    have distinct : Function.Injective Value.text := fun _ _ same => Value.text.inj same
    exact distinct.list_map (Option.some.inj listed).symm
  have kept := shown [(.text "a", .list [
    .map [(.text "y", .int 1), (.text "z", .int 2), (.text "x", .int 3)], .int 4,
    .map [(.text "y", .int 5), (.text "x", .int 6)]])]
  refine (Option.some.inj (kept.symm.trans ?_))
  rfl

end Permit.Session
