import Permit.Proofs.Authorization.Fields

namespace Permit.Authorization

open Permit.Action Diff

/-- **One entry, and one message, for each path.** Between two containers of JSON the changes
have an entry for each path of a changed place, which tells the change at such a place. There
are as many as places just if no two places have the same path, as under keys without dots.
The check of data lists so what its projection leaves out and reports each entry. -/
theorem messages_by_path (limit : Int) {old new : Value} (hold : old.isJson = true)
    (hnew : new.isJson = true) (left : old.isContainer = true) (right : new.isContainer = true) :
    let places := changedPlaces (limit - 1).toNat old new
    ∃ changes, between limit old new = .ok changes ∧
      Named (limit - 1).toNat old new changes ∧
      changes.length = (Path.ofSegments '' places).ncard ∧
      (changes.length = places.ncard ↔ Set.InjOn Path.ofSegments places) ∧
      (old.DotFree → new.DotFree → changes.length = places.ncard) ∧
      ∀ (s : Session) (permitted data : Value) (rules : List (Value × Value)) (tree : GrantTree),
        normalize s.settings.defaultRule permitted = .ok (some rules) →
        s.treeOf (rules.map (·.1)) = .ok tree → s.settings.maxDiffDepth = limit →
        tree.project (orEmpty data) = old → orEmpty data = new →
        Ends (checkFields permitted data) s (verdict (Keyed.keys changes)) := by
  intro places
  obtain ⟨changes, run, named⟩ := between_named limit hold hnew left right
  refine ⟨changes, run, named, named.length_eq, named.length_eq_iff, fun free free' => ?_, ?_⟩
  · exact named.length_eq_iff.mpr (injOn_ofSegments free free')
  · rintro s permitted data rules tree declares compiles rfl rfl rfl
    refine ends_checkFields declares compiles ?_
    rw [unauthorized, run]
    rfl

/-- A field beside one of the same path, under a key with a dot. -/
theorem messages_by_path_dotted :
    let data : Value := .record [("a.b", .int 1), ("a", .record [("b", .int 2), ("c", .null)])]
    ∃ changes, between 64 (.record [("a", .record [("c", .null)])]) data = .ok changes ∧
      changes.length = (Path.ofSegments ''
        changedPlaces 63 (.record [("a", .record [("c", .null)])]) data).ncard ∧
      Ends (checkFields (.texts ["a.c"]) data) {} (verdict (Keyed.keys changes)) := by
  intro data
  have compiles : ({} : Session).treeOf [.text "a.c"] =
      .ok ⟨.node .fields [("a", .node .fields [("c", .whole)])], ["a.c"]⟩ := rfl
  have declares : normalize ({} : Session).settings.defaultRule (.texts ["a.c"]) =
      .ok (some [(.text "a.c", .text ({} : Session).settings.defaultRule)]) := rfl
  obtain ⟨changes, run, _, counted, _, _, reported⟩ :=
    @messages_by_path 64 (.record [("a", .record [("c", .null)])]) data
      (by decide) (by decide) rfl rfl
  exact ⟨changes, run, counted, reported {} _ data _ _ declares compiles rfl rfl rfl⟩

/-- Two places with one path: there is one entry, and one message, for both of them. -/
theorem places_share_path :
    let old : Value := .record [("a", .map [])]
    let new : Value := .record [("a.b", .int 1), ("a", .record [("b", .int 2)])]
    Changed 63 old new ["a.b"] ∧ Changed 63 old new ["a", "b"] ∧
      (∃ changes, between 64 old new = .ok changes ∧ changes.length = 1 ∧
        changes.length ≠ (changedPlaces 63 old new).ncard) ∧
      Ends (checkFields (.texts ["a.c"]) new) {} (verdict ["a.b"]) := by
  intro old new
  have first : Changed 63 old new ["a.b"] := ⟨_, .added rfl rfl⟩
  have second : Changed 63 old new ["a", "b"] :=
    ⟨_, .within rfl rfl (by decide +kernel) rfl rfl (.added rfl rfl)⟩
  refine ⟨first, second, ?_, ?_⟩
  · have single : (between 64 old new).toOption.any
        (fun changes => decide (changes.length = 1)) = true := by decide +kernel
    obtain ⟨changes, run, one⟩ := Outcome.exists_of_any single
    obtain ⟨others, run', named⟩ :=
      @between_named old new 64 (by decide) (by decide) rfl rfl
    obtain rfl : changes = others := Except.ok.inj (run.symm.trans run')
    refine ⟨changes, run, of_decide_eq_true one, fun same => ?_⟩
    have identified := named.length_eq_iff.mp same first second (by decide +kernel)
    exact absurd identified (by decide)
  · have compiles : ({} : Session).treeOf [.text "a.c"] =
        .ok ⟨.node .fields [("a", .node .fields [("c", .whole)])], ["a.c"]⟩ := rfl
    have declares : normalize ({} : Session).settings.defaultRule (.texts ["a.c"]) =
        .ok (some [(.text "a.c", .text ({} : Session).settings.defaultRule)]) := rfl
    have found : (unauthorized 64 ⟨.node .fields [("a", .node .fields [("c", .whole)])], ["a.c"]⟩
        new).toOption.any (fun fields => decide (fields = ["a.b"])) = true := by decide +kernel
    obtain ⟨fields, found, same⟩ := Outcome.exists_of_any found
    obtain rfl := of_decide_eq_true same
    exact ends_checkFields declares compiles found

end Permit.Authorization
