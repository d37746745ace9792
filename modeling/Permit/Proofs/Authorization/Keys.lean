import Permit.Proofs.Authorization.Fields
import Permit.Proofs.Diff.Silence

/-!
The keys of data that pass the check for fields. A projection drops every key that is no
text; that is noticed by the search for changes, unless the key is written as a text that is
a key of the same mapping. So, where a grant of fields leads to a mapping, each of its keys
is at least written as a text with a grant that is a key there; and it is that text if no two
keys of the mapping are written as the same one (`checkFields_keys`). Without that a key that
is no text may pass: `checkFields_accepts_null_key`.
-/
namespace Permit

namespace Value

/-- No two keys of a mapping are written as the same text. -/
def TextsDiffer (entries : List (Value × Value)) : Prop :=
  ∀ e ∈ entries, ∀ e' ∈ entries, ∀ text, e.1.display = .ok text → e'.1.display = .ok text → e = e'

end Value

namespace Grant

open Value (TextsDiffer)

/-- The parts of a value that a grant leads to, each with the grant that it is under: by
grants of fields through mappings whose keys are all written as different texts, and by
grants of elements. -/
inductive Governs (g : Grant) (v : Value) : Grant → Value → Prop where
  | here : Governs g v g v
  | field {h own : Grant} {entries : List (Value × Value)} {name : String} {w : Value} :
      Governs g v h (.map entries) → h.kind = .fields → TextsDiffer entries →
      (.text name, w) ∈ entries → Keyed.find? h.children name = some own → Governs g v own w
  | element {h own : Grant} {u w : Value} {items : List Value} {index : Nat} :
      Governs g v h u → h.kind = .elements → u.items? = some items → items[index]? = some w →
      h.element? index = some own → Governs g v own w

/-- No change is found from what a grant keeps of a value to the value. -/
def Quiet (g : Grant) (v : Value) : Prop := ∀ p, g.project v = some p → Diff.Silent p v

variable {g own : Grant} {v w key : Value} {name : String} {entries : List (Value × Value)}
  {items : List Value} {index : Nat}

/-- Of a mapping that is quiet, every key is written as a text with a grant that is a key. -/
theorem Quiet.keys (quiet : Quiet g (.map entries)) (kind : g.kind = .fields)
    (inside : (key, v) ∈ entries) :
    ∃ name own w, key.display = .ok name ∧ Keyed.find? g.children name = some own ∧
      (.text name, w) ∈ entries := by
  cases quiet _ (project_of_fields kind entries) with
  | same same =>
    have long := (Value.equal_map_eq_true.mp same).1
    have keys := (sublist_keys_projectEntries g.children entries).eq_of_length
      (by simpa only [List.length_map] using long)
    have member : key ∈ entries.map (·.1) := List.mem_map_of_mem (f := (·.1)) inside
    rw [← keys] at member
    obtain ⟨⟨_, q⟩, left, rfl⟩ := List.mem_map.mp member
    obtain ⟨name, own, w, rfl, given, grant, _⟩ := mem_projectEntries.mp left
    exact ⟨name, own, w, rfl, grant, given⟩
  | walked left right keys _ =>
    obtain ⟨name, shown, there⟩ := Diff.exists_of_mem_textKeys right inside
    obtain ⟨q, found⟩ := Option.isSome_iff_exists.mp ((keys name).mpr there)
    obtain ⟨_, member, shown'⟩ := Diff.mem_of_find?_textKeys left found
    obtain ⟨name', own, w, rfl, given, grant, _⟩ := mem_projectEntries.mp member
    cases shown'
    exact ⟨name, own, w, shown, grant, given⟩

theorem Quiet.field (quiet : Quiet g (.map entries)) (kind : g.kind = .fields)
    (apart : TextsDiffer entries) (inside : (.text name, w) ∈ entries)
    (grant : Keyed.find? g.children name = some own) : Quiet own w := by
  intro q kept
  cases quiet _ (project_of_fields kind entries) with
  | same same =>
    have member : (.text name, q) ∈ projectEntries g.children entries :=
      mem_projectEntries.mpr ⟨name, own, w, rfl, inside, grant, kept⟩
    obtain ⟨y, found, same⟩ := (Value.equal_map_eq_true.mp same).2 _ member
    obtain ⟨k, there, text⟩ := Value.exists_of_find? found
    obtain rfl := Value.eq_text_of_sameKey text
    cases apart _ inside _ there name rfl rfl
    exact .same same
  | walked left right keys each =>
    obtain ⟨text, shown, there⟩ := Diff.exists_of_mem_textKeys right inside
    cases shown
    obtain ⟨y, after⟩ := Option.isSome_iff_exists.mp there
    obtain ⟨x, before⟩ := Option.isSome_iff_exists.mp ((keys name).mpr there)
    have silent := each name x y before after
    -- under the text of a key both sides hold the value of that very key
    obtain ⟨k, given, shown⟩ := Diff.mem_of_find?_textKeys right after
    cases apart _ inside _ given name rfl shown
    obtain ⟨_, member, shown'⟩ := Diff.mem_of_find?_textKeys left before
    obtain ⟨_, own', w', rfl, given', grant', kept'⟩ := mem_projectEntries.mp member
    cases shown'
    cases grant.symm.trans grant'
    cases apart _ inside _ given' name rfl rfl
    cases kept.symm.trans kept'
    exact silent

theorem Quiet.element (quiet : Quiet g v) (kind : g.kind = .elements)
    (sequence : v.items? = some items) (held : items[index]? = some w)
    (grant : g.element? index = some own) : Quiet own w := by
  intro q kept
  have some : g.children.isEmpty = false := by
    cases children : g.children with
    | nil => simp [element?, children, Keyed.find?] at grant
    | cons _ _ => rfl
  have whole := project_of_elements kind sequence
  simp only [some, Bool.false_eq_true, if_false] at whole
  -- nothing is cut off, since that would be a change of its own
  have left : ∃ x, (projectItems g 0 items)[index]? = .some x ∧ Diff.Silent x w := by
    cases quiet _ whole with
    | same same =>
      have all := (Value.equal_sequence_eq_true rfl sequence).mp same
      obtain ⟨long, each⟩ := List.forall₂_iff_get.mp all
      obtain ⟨bound, rfl⟩ := List.getElem?_eq_some_iff.mp held
      exact ⟨_, List.getElem?_eq_getElem (long ▸ bound), .same (each index (long ▸ bound) bound)⟩
    | walked before after keys each =>
      cases before
      cases (Diff.view_of_items? sequence).symm.trans after
      have given : Keyed.find? (Diff.positions 0 items) (Number.natText (0 + index)) = .some w :=
        Diff.find?_positions.trans held
      obtain ⟨x, kept⟩ := Option.isSome_iff_exists.mp ((keys _).mpr (by rw [given]; rfl))
      exact ⟨x, Diff.find?_positions.symm.trans kept, each _ x w kept given⟩
  obtain ⟨x, there, silent⟩ := left
  obtain ⟨w', own', held', grant', rfl⟩ := getElem?_projectItems there
  rw [Nat.zero_add] at grant'
  cases held.symm.trans held'
  cases grant.symm.trans grant'
  rw [kept] at silent
  exact silent

/-- What is quiet is so in every part that its grant leads to. -/
theorem Governs.quiet {h : Grant} {u : Value} (governs : Governs g v h u) (quiet : Quiet g v) :
    Quiet h u := by
  induction governs with
  | here => exact quiet
  | field _ kind apart inside grant ih => exact ih.field kind apart inside grant
  | element _ kind sequence held grant ih => exact ih.element kind sequence held grant

end Grant

namespace Authorization

open Permit.Action
open Value (TextsDiffer)

variable {s s' : Session} {permitted data key v : Value} {rules : List (Value × Value)}
  {tree : GrantTree} {g : Grant} {entries : List (Value × Value)}

theorem quiet_of_checkFields
    (declares : normalize s.settings.defaultRule permitted = .ok (some rules))
    (compiles : s.treeOf (rules.map (·.1)) = .ok tree)
    (passes : (checkFields permitted data).run s = (.ok (), s')) :
    Grant.Quiet (.node .fields tree.children) (orEmpty data) := by
  have ends : Ends (checkFields permitted data) s _ :=
    ends_checkFields_of_compiles declares compiles
  obtain ⟨fields, found, allowed⟩ := Outcome.bind_eq_ok_iff.mp (ends.outcome_eq passes).1.symm
  obtain ⟨changes, run, listed⟩ := Outcome.map_eq_ok_iff.mp found
  rw [Outcome.mapError_eq_ok_iff] at run
  obtain rfl : fields = [] := by
    rw [verdict] at allowed
    split at allowed
    case isTrue none => exact List.isEmpty_iff.mp none
    case isFalse => cases allowed
  obtain rfl := List.map_eq_nil_iff.mp listed
  intro p kept
  cases mapping : orEmpty data with
  | map entries =>
    rw [mapping] at kept run
    cases (tree.project_map_eq entries).symm.trans kept
    exact Diff.silent_of_between run
  | _ =>
    rw [mapping] at kept
    cases kept

/-- **The keys of data that pass.** Where grants of fields lead to a mapping, every key is
written as a text that is a key of the mapping and has a grant there. It is that text, if no
two keys of the mapping are written as the same one. -/
theorem checkFields_keys
    (declares : normalize s.settings.defaultRule permitted = .ok (some rules))
    (compiles : s.treeOf (rules.map (·.1)) = .ok tree)
    (passes : (checkFields permitted data).run s = (.ok (), s'))
    (governs : Grant.Governs (.node .fields tree.children) (orEmpty data) g (.map entries))
    (kind : g.kind = .fields) (inside : (key, v) ∈ entries) :
    ∃ name, key.display = .ok name ∧ (Keyed.find? g.children name).isSome ∧
      (∃ w, (.text name, w) ∈ entries) ∧ (TextsDiffer entries → key = .text name) := by
  have quiet := governs.quiet (quiet_of_checkFields declares compiles passes)
  obtain ⟨name, own, w, shown, grant, given⟩ := quiet.keys kind inside
  refine ⟨name, shown, by rw [grant]; rfl, ⟨w, given⟩, fun apart => ?_⟩
  cases apart _ inside _ given name shown rfl
  rfl

/-- Two keys with one text in a mapping among the elements of a list. -/
theorem checkFields_keys_null :
    ∃ tree s' g,
      normalize ({} : Session).settings.defaultRule (.list [.text "a.*.None"]) =
        .ok (some [(.text "a.*.None", .text ({} : Session).settings.defaultRule)]) ∧
      ({} : Session).treeOf [.text "a.*.None"] = .ok tree ∧
      (checkFields (.list [.text "a.*.None"]) (.record [("a", .list [.map [],
        .map [(.null, .int 1), (.text "None", .int 2)]])])).run {} = (.ok (), s') ∧
      Grant.Governs (.node .fields tree.children) (.record [("a", .list [.map [],
        .map [(.null, .int 1), (.text "None", .int 2)]])]) g
        (.map [(.null, .int 1), (.text "None", .int 2)]) ∧
      g.kind = .fields ∧ ∃ name, Value.null.display = .ok name ∧
        (Keyed.find? g.children name).isSome := by
  have test : (({} : Session).treeOf [.text "a.*.None"]).toOption.any (fun tree =>
      (Keyed.find? tree.children "a").any fun h => decide (h.kind = .elements) &&
        (h.element? 1).any fun g => decide (g.kind = .fields)) = true := by decide +kernel
  have ends : ((checkFields (.list [.text "a.*.None"]) (.record [("a", .list [.map [],
      .map [(.null, .int 1), (.text "None", .int 2)]])])).run
        ({} : Session)).1.toOption.isSome = true := by decide +kernel
  obtain ⟨tree, compiles, leads⟩ := Outcome.exists_of_any test
  simp only [Option.any_eq_true, Bool.and_eq_true, decide_eq_true_iff] at leads
  obtain ⟨h, found, elements, g, found', fields⟩ := leads
  obtain ⟨⟨⟩, s', passes⟩ := exists_run ends
  have declares : normalize ({} : Session).settings.defaultRule (.list [.text "a.*.None"]) =
      .ok (some [(.text "a.*.None", .text ({} : Session).settings.defaultRule)]) := rfl
  have apart : TextsDiffer [(.text "a", .list [.map [],
      .map [(.null, .int 1), (.text "None", .int 2)]])] := by
    intro e inside e' inside' text _ _
    rw [List.mem_singleton.mp inside, List.mem_singleton.mp inside']
  have list := Grant.Governs.field (h := .node .fields tree.children) .here rfl apart
    (List.mem_singleton_self _) found
  have governs := list.element elements rfl rfl found'
  obtain ⟨name, shown, grant, _⟩ := checkFields_keys declares compiles passes governs fields
    (List.mem_cons_self ..)
  exact ⟨tree, s', g, declares, compiles, passes, governs, fields, name, shown, grant⟩

/-- A key that is no text passes next to a text that it is written as. -/
theorem checkFields_accepts_null_key :
    (∃ tree, ({} : Session).treeOf [.text "None"] = .ok tree) ∧
      (∃ s', (checkFields (.list [.text "None"])
        (.map [(.null, .int 1), (.text "None", .int 2)])).run {} = (.ok (), s')) ∧
      ¬ ∀ e ∈ [(Value.null, Value.int 1), (.text "None", .int 2)], ∃ name, e.1 = .text name := by
  have compiles : (({} : Session).treeOf [.text "None"]).toOption.any (fun _ => true) = true := by
    decide +kernel
  have ends : ((checkFields (.list [.text "None"])
      (.map [(.null, .int 1), (.text "None", .int 2)])).run ({} : Session)).1.toOption.isSome =
        true := by decide +kernel
  obtain ⟨tree, compiles, _⟩ := Outcome.exists_of_any compiles
  obtain ⟨⟨⟩, passes⟩ := exists_run ends
  refine ⟨⟨tree, compiles⟩, passes, fun texts => ?_⟩
  obtain ⟨name, text⟩ := texts _ (List.mem_cons_self ..)
  cases text

/-- What is left unseen under such a key may hold a text without a grant, too. -/
example : ((checkFields (.list [.text "None.b"])
    (.map [(.text "None", .record [("b", .int 2), ("secret", .int 1)]),
      (.null, .record [("b", .int 2)])])).run ({} : Session)).1.toOption.isSome = true := by
  decide +kernel

end Authorization
end Permit
