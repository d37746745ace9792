import Permit.Proofs.Authorization.Fields

/-!
What a rejection names. The fields it reports are places of the data; a leaf that the
projection leaves out lies below exactly one of them, and a leaf that it keeps below none,
unless the leaf is deeper than the limit to which differences are followed:
`reported_fields`. Past that limit a whole part is reported, kept leaves and all:
`reported_whole_part`.
-/
namespace Permit

namespace Diff

/-- A place that is changed from a trimmed value is a place of the given one. -/
theorem Changed.at? {levels : Nat} {p v : Value} {place : List String}
    (changed : Changed levels p v place) (trimmed : Trimmed p v) :
    ∃ w, v.at? place = some w := by
  obtain ⟨change, h⟩ := changed
  induction h with
  | removed before after =>
    obtain ⟨w, given, _⟩ := trimmed.part before
    rw [after] at given
    cases given
  | added _ after => exact ⟨_, Value.at?_cons.mpr ⟨_, after, rfl⟩⟩
  | replaced _ after _ _ => exact ⟨_, Value.at?_cons.mpr ⟨_, after, rfl⟩⟩
  | within before after _ _ _ _ ih =>
    obtain ⟨x, held⟩ := ih (trimmed.part_of_both before after)
    exact ⟨x, Value.at?_cons.mpr ⟨_, after, held⟩⟩

end Diff

namespace Authorization

open Permit.Action

variable {s : Session} {permitted data : Value} {rules : List (Value × Value)} {tree : GrantTree}

/-- **What a rejection names.** No field is reported twice; a leaf of a container that its
projection leaves out lies at or below exactly one reported field, and one that it keeps
lies below none if it is not deeper than the limit. -/
theorem reported_fields
    (declares : normalize s.settings.defaultRule permitted = .ok (some rules))
    (compiles : s.treeOf (rules.map (·.1)) = .ok tree) (json : data.isJson = true)
    (container : data.isContainer = true) (dotFree : data.DotFree) :
    ∃ fields s', (checkFields permitted data).run s = (verdict fields, s') ∧ fields.Nodup ∧
      ∀ place x, data.at? place = some x → x.isContainer = false →
        ((tree.project data).at? place ≠ some x →
          ∃! field, field ∈ fields ∧ Path.segments field <+: place) ∧
        ((tree.project data).at? place = some x →
          (place.length : Int) ≤ s.settings.maxDiffDepth →
          ∀ field ∈ fields, ¬ Path.segments field <+: place) := by
  have same : orEmpty data = data := by
    cases data <;> first | rfl | cases container
  have trimmed := tree.project_trimmed json
  obtain ⟨fields, found, once, changes, _⟩ :=
    unauthorized_json tree s.settings.maxDiffDepth json
  obtain ⟨s', run, _⟩ := ends_checkFields declares compiles (same.symm ▸ found)
  have reads {outer : List String}
      (changed : Diff.Changed (s.settings.maxDiffDepth - 1).toNat (tree.project data) data outer) :
      Path.segments (Path.ofSegments outer) = outer := by
    obtain ⟨w, held⟩ := changed.at? trimmed
    refine Path.segments_ofSegments ?_ (dotFree outer w held)
    obtain ⟨key, rest, rfl⟩ := changed.exists_cons
    exact List.cons_ne_nil _ _
  refine ⟨fields, s', run, once, fun place x held plain => ⟨?_, ?_⟩⟩
  · intro gone
    obtain ⟨outer, ⟨begins, changed⟩, only⟩ :=
      Diff.pruned_leaf (s.settings.maxDiffDepth - 1).toNat trimmed json container
        plain held gone
    refine ⟨Path.ofSegments outer, ⟨(changes container _).mpr ⟨outer, changed, rfl⟩, ?_⟩, ?_⟩
    · exact (reads changed).symm ▸ begins
    · rintro field ⟨inside, begins'⟩
      obtain ⟨outer', changed', rfl⟩ := (changes container field).mp inside
      rw [reads changed'] at begins'
      rw [only outer' ⟨begins', changed'⟩]
  · intro left room field inside begins
    obtain ⟨outer, changed, rfl⟩ := (changes container field).mp inside
    rw [reads changed] at begins
    exact Diff.kept_leaf trimmed json plain held left (by omega) outer changed begins

/-- Of two fields, the one that is not permitted is reported and the other one is not. -/
theorem reported_fields_record :
    ∃ fields s', (checkFields (.list [.text "a.b"])
        (.record [("a", .record [("b", .null), ("c", .null)])])).run {} =
          (verdict fields, s') ∧
      (∃! field, field ∈ fields ∧ Path.segments field <+: ["a", "c"]) ∧
      ∀ field ∈ fields, ¬ Path.segments field <+: ["a", "b"] := by
  have compiles : ({} : Session).treeOf [.text "a.b"] =
      .ok ⟨.node .fields [("a", .node .fields [("b", .whole)])], ["a.b"]⟩ := rfl
  have leaf : Value.null.DotFree := .of_parts fun f inside => by cases inside
  have inner : (Value.record [("b", .null), ("c", .null)]).DotFree := by
    refine .of_parts fun f inside => ?_
    rcases List.mem_cons.mp inside with rfl | inside
    · exact ⟨by decide, leaf⟩
    · cases List.mem_singleton.mp inside
      exact ⟨by decide, leaf⟩
  have outer : (Value.record [("a", .record [("b", .null), ("c", .null)])]).DotFree := by
    refine .of_parts fun f inside => ?_
    cases List.mem_singleton.mp inside
    exact ⟨by decide, inner⟩
  have declares : normalize ({} : Session).settings.defaultRule (.list [.text "a.b"]) =
      .ok (some [(.text "a.b", .text ({} : Session).settings.defaultRule)]) := rfl
  obtain ⟨fields, s', run, _, leaves⟩ :=
    reported_fields declares compiles (by decide) rfl outer
  refine ⟨fields, s', run, ?_, ?_⟩
  · refine (leaves ["a", "c"] .null rfl rfl).1 ?_
    intro left
    cases left
  · exact (leaves ["a", "b"] .null rfl rfl).2 rfl (by decide)

/-- With a limit of one level, all of a part with a difference is reported, also where the
leaves below that level are null and none of them is a scalar. -/
theorem reported_whole_part :
    (∀ place x, (Value.record [("a", .record [("b", .null), ("c", .null)])]).at? place = some x →
      x.kind = .scalar → place.length ≤ 1) ∧
    ∃ tree s', ({ settings := { maxDiffDepth := 1 } } : Session).treeOf [.text "a.b"] = .ok tree ∧
      (tree.project (.record [("a", .record [("b", .null), ("c", .null)])])).at? ["a", "b"] =
        some .null ∧
      (checkFields (.list [.text "a.b"])
        (.record [("a", .record [("b", .null), ("c", .null)])])).run
          { settings := { maxDiffDepth := 1 } } = (verdict ["a"], s') ∧
      Path.segments "a" <+: ["a", "b"] := by
  constructor
  · intro place x held scalar
    match place, held with
    | [], held =>
      cases held
      cases scalar
    | [_], _ => exact Nat.le_refl 1
    | key :: next :: rest, held =>
      obtain ⟨part, found, held⟩ := Value.at?_cons.mp held
      cases List.mem_singleton.mp (Keyed.mem_of_find? found)
      obtain ⟨leaf, found, held⟩ := Value.at?_cons.mp held
      have null : leaf = .null := by
        rcases List.mem_cons.mp (Keyed.mem_of_find? found) with same | inside
        · exact (Prod.mk.inj same).2
        · exact (Prod.mk.inj (List.mem_singleton.mp inside)).2
      subst null
      obtain rfl := Value.eq_nil_of_at? rfl held
      cases held
      cases scalar
  have compiles : ({ settings := { maxDiffDepth := 1 } } : Session).treeOf [.text "a.b"] =
      .ok ⟨.node .fields [("a", .node .fields [("b", .whole)])], ["a.b"]⟩ := rfl
  have found : (unauthorized 1 ⟨.node .fields [("a", .node .fields [("b", .whole)])], ["a.b"]⟩
      (.record [("a", .record [("b", .null), ("c", .null)])])).toOption.any
        (fun fields => decide (fields = ["a"])) = true := by decide +kernel
  obtain ⟨fields, found, same⟩ := Outcome.exists_of_any found
  obtain rfl := of_decide_eq_true same
  have declares : normalize ({} : Settings).defaultRule (.list [.text "a.b"]) =
      .ok (some [(.text "a.b", .text ({} : Settings).defaultRule)]) := rfl
  have reported : unauthorized
      ({ settings := { maxDiffDepth := 1 } } : Session).settings.maxDiffDepth
      ⟨.node .fields [("a", .node .fields [("b", .whole)])], ["a.b"]⟩
      (orEmpty (.record [("a", .record [("b", .null), ("c", .null)])])) = .ok ["a"] := found
  obtain ⟨s', run, _⟩ := ends_checkFields declares compiles reported
  exact ⟨_, s', compiles, rfl, run, by decide +kernel⟩

end Authorization
end Permit
