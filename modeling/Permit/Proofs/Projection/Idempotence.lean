import Permit.Proofs.Projection.Trimmed

namespace Permit

namespace Grant

/-- A value that does not fit its grant gives way to one that does. -/
theorem project_placeholder {g : Grant} {v : Value} (misfit : g.project v = none) :
    g.project g.placeholder = some g.placeholder := by
  cases kind : g.kind with
  | whole => cases (project_of_whole kind v).symm.trans misfit
  | fields => simp [placeholder, project, projectEntries, kind]
  | elements => simp [placeholder, project, projectItems, kind]

-- The recursion is on the value that was given: a grant says nothing of how deep it goes.
mutual

/-- **What a grant keeps, it keeps as it is.** -/
theorem project_kept : ∀ {g : Grant} {p : Value} (v : Value),
    g.project v = some p → g.project p = some p
  | g, p, .map entries, h => by
    rcases project_cases h with ⟨kind, rfl⟩ | ⟨kind, _, same, rfl⟩ | ⟨_, _, none, _⟩
    · exact h
    · cases same
      simp only [project, kind, projectEntries_kept entries]
    · cases none
  | g, p, .list items, h | g, p, .tuple items, h => by
    rcases project_cases h with ⟨kind, rfl⟩ | ⟨_, _, none, _⟩ | ⟨kind, _, same, rfl⟩
    · exact h
    · cases none
    · cases same
      simp only [project, kind]
      split
      · rfl
      · rw [projectItems_kept items]
  | g, p, .null, h | g, p, .bool _, h | g, p, .int _, h | g, p, .float _, h | g, p, .text _, h
  | g, p, .bytes _, h | g, p, .object .., h | g, p, .renderable .., h
  | g, p, .incomparable .., h => by
    rcases project_cases h with ⟨kind, rfl⟩ | ⟨_, _, none, _⟩ | ⟨_, _, none, _⟩
    · exact h
    · cases none
    · cases none

theorem projectEntries_kept : ∀ {grants : List (String × Grant)} (entries : List (Value × Value)),
    projectEntries grants (projectEntries grants entries) = projectEntries grants entries
  | _, [] => rfl
  | grants, (key, v) :: rest => by
    have others := @projectEntries_kept grants rest
    rcases key.other_or_text with other | ⟨name, rfl⟩
    · rw [projectEntries_other grants other, others]
    · rw [projectEntries_text]
      cases found : (Keyed.find? grants name).bind fun g => project g v with
      | none => exact others
      | some kept =>
        obtain ⟨own, grant, fits⟩ := Option.bind_eq_some_iff.mp found
        have again := project_kept v fits
        simp [projectEntries_text, grant, again, others]

/-- Elements that are kept are the first ones, so each stays under its own grant. -/
theorem projectItems_kept : ∀ {g : Grant} {index : Nat} (items : List Value),
    projectItems g index (projectItems g index items) = projectItems g index items
  | _, _, [] => rfl
  | g, index, v :: rest => by
    have others := @projectItems_kept g (index + 1) rest
    cases found : g.element? index with
    | none => simp [projectItems, found]
    | some own =>
      have again : own.project ((own.project v).getD own.placeholder) =
          some ((own.project v).getD own.placeholder) := by
        cases fits : own.project v with
        | none => exact project_placeholder fits
        | some p => exact project_kept v fits
      simp [projectItems, found, again, others]

end

theorem wellKeyed_placeholder (g : Grant) : g.placeholder.WellKeyed := by
  rw [placeholder]
  split
  · exact .list (fun v inside => by cases inside)
  · exact .map_nil

theorem wellKeyed_projectEntries {grants : List (String × Grant)}
    {entries : List (Value × Value)} (keyable : ∀ e ∈ entries, e.1.unkeyable? = none)
    (once : (entries.map (·.1)).Pairwise fun k k' => Value.sameKey k k' = false)
    (parts : ∀ e ∈ entries, ∀ {g : Grant} {p : Value}, g.project e.2 = some p → p.WellKeyed) :
    (Value.map (projectEntries grants entries)).WellKeyed := by
  refine .map ?_ (once.sublist (sublist_keys_projectEntries grants entries)) ?_
  · rintro ⟨key, p⟩ inside
    obtain ⟨_, _, v, _, given, _, _⟩ := mem_projectEntries.mp inside
    exact keyable (key, v) given
  · rintro ⟨key, p⟩ inside
    obtain ⟨_, _, v, _, given, _, fits⟩ := mem_projectEntries.mp inside
    exact parts (key, v) given fits

theorem wellKeyed_projectItems {g : Grant} {items : List Value}
    (parts : ∀ v ∈ items, ∀ {own : Grant} {p : Value}, own.project v = some p → p.WellKeyed) :
    (Value.list (projectItems g 0 items)).WellKeyed := by
  refine .list fun p inside => ?_
  obtain ⟨index, held⟩ := List.mem_iff_getElem?.mp inside
  obtain ⟨v, own, given, _, rfl⟩ := getElem?_projectItems held
  cases fits : own.project v with
  | none => exact wellKeyed_placeholder own
  | some p => exact parts v (List.mem_of_getElem? given) fits

/-- The keys that are left of a mapping are still those of one. -/
theorem wellKeyed_project {v : Value} (h : v.WellKeyed) :
    ∀ {g : Grant} {p : Value}, g.project v = some p → p.WellKeyed := by
  induction h with
  | @scalar v plain =>
    intro g p kept
    rcases project_cases kept with ⟨_, rfl⟩ | ⟨_, _, rfl, _⟩ | ⟨_, _, sequence, _⟩
    · exact .scalar plain
    · cases plain
    · cases (Value.isContainer_of_items? sequence).symm.trans plain
  | list parts ih | tuple parts ih =>
    intro g p kept
    rcases project_cases kept with ⟨_, rfl⟩ | ⟨_, _, none, _⟩ | ⟨_, _, same, rfl⟩
    · first | exact .list parts | exact .tuple parts
    · cases none
    · cases same
      split
      · exact .list parts
      · exact wellKeyed_projectItems ih
  | map keyable once parts ih =>
    intro g p kept
    rcases project_cases kept with ⟨_, rfl⟩ | ⟨_, _, same, rfl⟩ | ⟨_, _, none, _⟩
    · exact .map keyable once parts
    · cases same
      exact wellKeyed_projectEntries keyable once ih
    · cases none

end Grant

namespace Diff

/-- No change is found from a value to itself, however deep the search may go. -/
theorem between_self (limit : Int) {v : Value} (h : v.WellKeyed) :
    between limit v v = .ok [] := by
  simp only [between, edits, unchanged, h.equal_self]
  rfl

end Diff

namespace GrantTree

open Grant

theorem project_project (tree : GrantTree) (v : Value) :
    tree.project (tree.project v) = tree.project v := by
  cases v with
  | map entries =>
    exact congrArg Value.map (projectEntries_kept entries)
  | _ => rfl

theorem wellKeyed_project (tree : GrantTree) {v : Value} (h : v.WellKeyed) :
    (tree.project v).WellKeyed := by
  cases v with
  | map entries => exact Grant.wellKeyed_project h (tree.project_map_eq entries)
  | _ => exact .map_nil

/-- **Projecting twice.** By any tree, compiled or not, what is left of a value is left of
itself. If mappings have keys as mappings do, no search for changes finds one between the
two, to whatever depth. -/
theorem project_idempotent (tree : GrantTree) (v : Value) :
    tree.project (tree.project v) = tree.project v ∧
      (v.WellKeyed → ∀ limit,
        Diff.between limit (tree.project (tree.project v)) (tree.project v) = .ok []) := by
  have same := tree.project_project v
  refine ⟨same, fun keyed limit => ?_⟩
  rw [same]
  exact Diff.between_self limit (tree.wellKeyed_project keyed)

/-- Grants for the elements of elements, a grant for elements with none of its own, and a
value with a number that is not one, objects that refuse to be compared, and keys that are no
texts. -/
theorem project_idempotent_uncomparable :
    ∃ (tree : GrantTree) (v : Value), v.WellKeyed ∧
      tree.project v = .map [(.text "a", .list [.list [.float (.nan 0)], .list []]),
        (.text "b", .list [.incomparable 1 .runtime]),
        (.text "c", .map [(.null, .incomparable 2 .type)])] ∧
      tree.project (tree.project v) = tree.project v ∧
      ∀ limit, Diff.between limit (tree.project (tree.project v)) (tree.project v) = .ok [] := by
  have keyed : (Value.map [(.text "a", .list [.tuple [.float (.nan 0), .null], .int 2]),
      (.text "b", .tuple [.incomparable 1 .runtime]),
      (.text "c", .map [(.null, .incomparable 2 .type)]),
      (.float (.nan 3), .int 3)]).WellKeyed := by
    have pair : (Value.tuple [.float (.nan 0), .null]).WellKeyed :=
      .tuple (List.forall_mem_cons.mpr ⟨.scalar rfl, List.forall_mem_singleton.mpr (.scalar rfl)⟩)
    refine .map (by decide) (by decide) ?_
    simp only [List.forall_mem_cons, List.not_mem_nil, false_implies, implies_true, and_true]
    refine ⟨.list ?_, .tuple ?_, .map (by decide) (by decide) ?_, .scalar rfl⟩
    · exact List.forall_mem_cons.mpr ⟨pair, List.forall_mem_singleton.mpr (.scalar rfl)⟩
    · exact List.forall_mem_singleton.mpr (.scalar rfl)
    · exact List.forall_mem_singleton.mpr (.scalar rfl)
  refine ⟨⟨.node .fields [("a", .node .elements [("*", .node .elements [("0", .whole)])]),
    ("b", .node .elements []), ("c", .whole)], []⟩, _, keyed, rfl, ?_⟩
  exact (project_idempotent _ _).imp_right fun silent => silent keyed

end GrantTree
end Permit
