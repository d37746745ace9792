import Permit.Proofs.Projection.Idempotence
import Permit.Proofs.Session.Compilation
import Permit.Response

/-!
Shaping what has been shaped. What is left of the content of a response is laid out as the
content was, and shaping it again changes nothing.

* `Layout` is the way in which content is shaped, and `SameLayout` says what of it stays;
* `envelopeItems?_project`: what is left of a mapping that is no envelope is none either;
* `shapePlain_sameLayout`, `shape_shape`: the two halves of the main statement, by a tree;
* `Session.shapeResponse_idempotent`: both, by the paths of a response.
-/
namespace Permit.Response

open Value (sameKey)

variable {tree : GrantTree} {entries : List (Value × Value)} {items : List Value}
  {content : Value}

inductive Layout where
  | envelope
  | sequence
  | single
deriving Repr, DecidableEq

def layout (content : Value) : Layout :=
  match content with
  | .map entries => if (envelopeItems? entries).isSome then .envelope else .single
  | .list _ => .sequence
  | .tuple _ => .sequence
  | _ => .single

/-- No two keys of a mapping are the same. -/
def KeysOnce (v : Value) : Prop :=
  ∀ entries, v = .map entries →
    (entries.map (·.1)).Pairwise fun k k' => sameKey k k' = false

structure SameLayout (given left : Value) : Prop where
  layout_eq : layout left = layout given
  /-- A sequence is left as one of the same length. -/
  sequence : ∀ items, given.items? = some items →
    ∃ kept, left = .list kept ∧ kept.length = items.length
  /-- An envelope has the same keys in the same order, with the same values beside the items. -/
  envelope : ∀ entries items, given = .map entries → envelopeItems? entries = some items →
    ∃ entries' kept, left = .map entries' ∧ envelopeItems? entries' = some kept ∧
      kept.length = items.length ∧
      List.Forall₂ (fun e e' => e'.1 = e.1 ∧
        (sameKey e.1 (.text dataKey) = false → e'.2 = e.2)) entries entries'

/-! ### Items -/

theorem toPlain_project (tree : GrantTree) (v : Value) :
    (tree.project v).toPlain = tree.project v := by
  cases v <;> rfl

/-- Items that have been projected are plain data, and projecting them changes nothing. -/
theorem shapeItems_projectAll (tree : GrantTree) (items : List Value) :
    shapeItems tree (tree.projectAll items) = .list (tree.projectAll items) := by
  simp only [shapeItems, GrantTree.projectAll, List.map_map]
  congr 1
  refine List.map_congr_left fun v _ => ?_
  simp only [Function.comp_apply, toPlain_project, GrantTree.project_project]

/-! ### Envelopes -/

theorem shapeEntry_fst (tree : GrantTree) (items : List Value) (e : Value × Value) :
    (shapeEntry tree items e).1 = e.1 := by
  rw [shapeEntry]
  split <;> rfl

theorem shapeEntry_other {e : Value × Value} (other : sameKey e.1 (.text dataKey) = false) :
    shapeEntry tree items e = e := by
  simp only [shapeEntry, other, Bool.false_eq_true, if_false]

theorem field?_shapeEntry (entries : List (Value × Value)) :
    Value.field? (entries.map (shapeEntry tree items)) dataKey =
      (Value.field? entries dataKey).map fun _ => shapeItems tree items := by
  simp only [Value.field?]
  induction entries with
  | nil => rfl
  | cons e rest ih =>
    simp only [List.map_cons, Value.find?, shapeEntry_fst, ih]
    split
    next own => simp only [shapeEntry, own, if_true, Option.map_some]
    next => rfl

/-- The items of an envelope that has been shaped are those that were projected. -/
theorem envelopeItems?_shapeEntry (tree : GrantTree)
    (envelope : envelopeItems? entries = some items) :
    envelopeItems? (entries.map (shapeEntry tree items)) =
      some (tree.projectAll (items.map Value.toPlain)) := by
  obtain ⟨v, found, _⟩ := Option.bind_eq_some_iff.mp envelope
  simp only [envelopeItems?, field?_shapeEntry, found, Option.map_some, Option.bind_some]
  rfl

theorem shapeEntry_shapeEntry (e : Value × Value) :
    shapeEntry tree (tree.projectAll (items.map Value.toPlain)) (shapeEntry tree items e) =
      shapeEntry tree items e := by
  cases own : sameKey e.1 (.text dataKey) with
  | false => rw [shapeEntry_other own, shapeEntry_other own]
  | true =>
    simp only [shapeEntry, own, if_true, shapeItems_projectAll]
    rfl

/-- What a grant leaves of a value is a sequence only if the value is one. -/
theorem items?_of_project {g : Grant} {v p : Value} (kept : g.project v = some p)
    (scalar : v.items? = none) : p.items? = none := by
  rcases Grant.project_cases kept with ⟨_, rfl⟩ | ⟨_, _, _, rfl⟩ | ⟨_, items, sequence, _⟩
  · exact scalar
  · rfl
  · cases scalar.symm.trans sequence

/-- What is left of a mapping that is no envelope is none either. Were a key there twice, the
first value could give way to one that is a sequence. -/
theorem envelopeItems?_project (grants : List (String × Grant))
    (once : (entries.map (·.1)).Pairwise fun k k' => sameKey k k' = false)
    (bare : envelopeItems? entries = none) :
    envelopeItems? (Grant.projectEntries grants entries) = none := by
  refine Option.bind_eq_none_iff.mpr fun p found => ?_
  -- what is left under the key is of the one entry that the mapping has under it
  obtain ⟨key, inside, same⟩ := Value.exists_of_find? found
  obtain rfl := Value.eq_text_of_sameKey same
  obtain ⟨name, own, v, _, given, _, kept⟩ := Grant.mem_projectEntries.mp inside
  have there : Value.field? entries dataKey = some v := Value.find?_of_mem once rfl given
  exact items?_of_project kept (Option.bind_eq_none_iff.mp bare v there)

/-! ### Content -/

theorem layout_of_items? (sequence : content.items? = some items) : layout content = .sequence := by
  cases content <;> first | rfl | cases sequence

theorem shapePlain_cases (tree : GrantTree) (content : Value) :
    (∃ entries items, content = .map entries ∧ envelopeItems? entries = some items ∧
      shapePlain tree content = .map (entries.map (shapeEntry tree items))) ∨
    (∃ items, content.items? = some items ∧ shapePlain tree content = shapeItems tree items) ∨
    (layout content = .single ∧ content.items? = none ∧
      shapePlain tree content = tree.project content) := by
  cases content with
  | map entries =>
    cases envelope : envelopeItems? entries with
    | some items => exact .inl ⟨entries, items, rfl, envelope, by simp only [shapePlain, envelope]⟩
    | none =>
      exact .inr (.inr ⟨by simp [layout, envelope], rfl, by simp only [shapePlain, envelope]⟩)
  | list items | tuple items => exact .inr (.inl ⟨items, rfl, rfl⟩)
  | _ => exact .inr (.inr ⟨rfl, rfl, rfl⟩)

theorem layout_project (once : KeysOnce content) (single : layout content = .single) :
    layout (tree.project content) = .single := by
  cases content with
  | map entries =>
    have bare : envelopeItems? entries = none := by
      cases envelope : envelopeItems? entries with
      | none => rfl
      | some items => simp [layout, envelope] at single
    have left := envelopeItems?_project tree.children (once entries rfl) bare
    simp only [GrantTree.project, layout, left, Option.isSome_none, Bool.false_eq_true, if_false]
  | _ => rfl

theorem shapePlain_of_single (single : layout content = .single) :
    shapePlain tree content = tree.project content := by
  rcases shapePlain_cases tree content with ⟨entries, items, rfl, envelope, _⟩ |
    ⟨items, sequence, _⟩ | ⟨_, _, same⟩
  · simp [layout, envelope] at single
  · cases (layout_of_items? sequence).symm.trans single
  · exact same

/-- What is left of content is laid out as it was. -/
theorem shapePlain_sameLayout (tree : GrantTree) (once : KeysOnce content) :
    SameLayout content (shapePlain tree content) := by
  rcases shapePlain_cases tree content with ⟨entries, items, rfl, envelope, shaped⟩ |
    ⟨items, sequence, shaped⟩ | ⟨single, none, shaped⟩
  · rw [shaped]
    have left := envelopeItems?_shapeEntry tree envelope
    refine ⟨by simp only [layout, left, envelope, Option.isSome_some], ?_, ?_⟩
    · intro _ sequence
      cases sequence
    · rintro _ _ ⟨⟩ same
      obtain rfl := Option.some.inj (envelope.symm.trans same)
      refine ⟨_, _, rfl, left, by simp [GrantTree.projectAll], ?_⟩
      refine List.forall₂_map_right_iff.mpr (List.forall₂_same.mpr fun e _ => ?_)
      exact ⟨shapeEntry_fst .., fun other => by rw [shapeEntry_other other]⟩
  · rw [shaped]
    refine ⟨(layout_of_items? sequence).symm, ?_, ?_⟩
    · intro _ same
      obtain rfl := Option.some.inj (sequence.symm.trans same)
      exact ⟨_, rfl, by simp [GrantTree.projectAll]⟩
    · rintro _ _ rfl
      cases sequence
  · rw [shaped]
    refine ⟨(layout_project once single).trans single.symm, ?_, ?_⟩
    · intro _ sequence
      cases none.symm.trans sequence
    · rintro entries items rfl envelope
      simp [layout, envelope] at single

theorem shapePlain_shapePlain (tree : GrantTree) (once : KeysOnce content) :
    shapePlain tree (shapePlain tree content) = shapePlain tree content := by
  rcases shapePlain_cases tree content with ⟨entries, items, rfl, envelope, shaped⟩ |
    ⟨items, sequence, shaped⟩ | ⟨single, none, shaped⟩
  · have left := envelopeItems?_shapeEntry tree envelope
    rw [shaped]
    simp only [shapePlain, left, List.map_map]
    congr 1
    exact List.map_congr_left fun e _ => shapeEntry_shapeEntry e
  · rw [shaped]
    exact shapeItems_projectAll tree (items.map Value.toPlain)
  · rw [shaped, shapePlain_of_single (layout_project once single), GrantTree.project_project]

theorem toPlain_shapePlain (tree : GrantTree) (content : Value) :
    (shapePlain tree content).toPlain = shapePlain tree content := by
  rcases shapePlain_cases tree content with ⟨entries, items, _, _, shaped⟩ |
    ⟨items, _, shaped⟩ | ⟨_, _, shaped⟩
  · rw [shaped]
    rfl
  · rw [shaped]
    rfl
  · rw [shaped, toPlain_project]

/-- Shaping what has been shaped changes nothing. -/
theorem shape_shape (tree : GrantTree) (once : KeysOnce content.toPlain) :
    shape tree (shape tree content) = shape tree content := by
  rw [shape, shape, toPlain_shapePlain, shapePlain_shapePlain tree once]

theorem shape_ne_null (tree : GrantTree) (content : Value) : shape tree content ≠ .null := by
  rw [shape]
  rcases shapePlain_cases tree content.toPlain with ⟨_, _, _, _, shaped⟩ | ⟨_, _, shaped⟩ |
    ⟨_, _, shaped⟩
  · rw [shaped]
    nofun
  · rw [shaped]
    nofun
  · rw [shaped]
    cases content.toPlain <;> nofun

end Response

namespace Session

open Response

variable {s s₁ : Session} {paths content : Value} {compiled : Compiled}

theorem run_shapeResponse (compiles : (compile paths).run s = (.ok compiled, s₁))
    (given : content ≠ .null) :
    (shapeResponse paths content).run s = (.ok (shape compiled.tree content), s₁) := by
  rw [shapeResponse_of_ne_null given, Action.run_bind, compiles]
  rfl

/-- **Shaping a response twice.** Where the paths compile, content is shaped, and shaping what
is left of it by the same paths leaves it as it is. Without content there is none; else what is
left is laid out as the plain data of the content: an envelope, a sequence or one value. -/
theorem shapeResponse_idempotent (compiles : (compile paths).run s = (.ok compiled, s₁))
    (once : KeysOnce content.toPlain) :
    ∃ shaped s' s'', (shapeResponse paths content).run s = (.ok shaped, s') ∧
      (shapeResponse paths shaped).run s' = (.ok shaped, s'') ∧
      (content = .null → shaped = .null) ∧
      (content ≠ .null → SameLayout content.toPlain shaped.toPlain) := by
  by_cases given : content = .null
  · subst given
    exact ⟨.null, s, s, rfl, rfl, fun _ => rfl, fun given => absurd rfl given⟩
  · obtain ⟨again, s₂, compiles', same⟩ := compile_again compiles
    have left := shape_ne_null compiled.tree content
    refine ⟨shape compiled.tree content, s₁, s₂, run_shapeResponse compiles given, ?_,
      fun none => absurd none given, fun _ => ?_⟩
    · rw [run_shapeResponse compiles' left, same, shape_shape compiled.tree once]
    · rw [shape, toPlain_shapePlain]
      exact shapePlain_sameLayout compiled.tree once

/-- An envelope that an object renders itself as, of items of every kind. -/
theorem shapeResponse_idempotent_page :
    ∃ (paths page shaped : Value) (s' s'' : Session),
      paths = .list [.text "a.*.x", .text "b"] ∧
      page = .map [
        (.text "total", .object 1 .record [("b", .int 1)]),
        (.text "data", .tuple [
          .object 2 .record [("a", .list [.int 4, .map [(.text "x", .int 5)]]), ("c", .null)],
          .renderable 3 (.map [(.text "b", .list []), (.text "d", .int 6)]),
          .int 7]),
        (.null, .text "next")] ∧
      shaped = .map [
        (.text "total", .object 1 .record [("b", .int 1)]),
        (.text "data", .list [
          .map [(.text "a", .list [.map [], .map [(.text "x", .int 5)]])],
          .map [(.text "b", .list [])],
          .map []]),
        (.null, .text "next")] ∧
      (shapeResponse paths (.renderable 0 page)).run {} = (.ok shaped, s') ∧
      (shapeResponse paths shaped).run s' = (.ok shaped, s'') ∧
      layout page = .envelope ∧ layout shaped = .envelope := by
  have ends : ((compile (.list [.text "a.*.x", .text "b"])).run
      ({} : Session)).1.toOption.isSome = true := by decide +kernel
  obtain ⟨compiled, s₁, compiles⟩ := Action.exists_run ends
  have once : KeysOnce (Value.toPlain (.renderable 0 (.map [
      (.text "total", .object 1 .record [("b", .int 1)]),
      (.text "data", .tuple [
        .object 2 .record [("a", .list [.int 4, .map [(.text "x", .int 5)]]), ("c", .null)],
        .renderable 3 (.map [(.text "b", .list []), (.text "d", .int 6)]),
        .int 7]),
      (.null, .text "next")]))) := by
    rintro _ ⟨⟩
    decide
  obtain ⟨shaped, s', s'', first, second, _⟩ := shapeResponse_idempotent compiles once
  obtain ⟨_, ⟨⟩, found⟩ := treeOf_eq_of_compile compiles
  have tree : compiled.tree = ⟨.node .fields [("a", .node .elements [("*", .node .fields
      [("x", .whole)])]), ("b", .whole)], ["a.*.x", "b"]⟩ := Except.ok.inj (found.symm.trans rfl)
  have left := first
  rw [run_shapeResponse compiles, tree] at left
  · cases left
    exact ⟨_, _, _, _, _, rfl, rfl, rfl, first, second, rfl, rfl⟩
  · rintro ⟨⟩

end Session
end Permit
