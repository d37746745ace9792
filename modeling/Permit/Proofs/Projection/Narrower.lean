import Permit.Proofs.Projection.Confinement
import Permit.Proofs.Projection.Idempotence

namespace Permit

namespace Grant

/-- A grant is narrower than another one: that one permits all, or both are of one kind and for
every part that the first has a grant for, the second has a wider one. -/
inductive Narrower : Grant → Grant → Prop where
  | whole {g h : Grant} : h.kind = .whole → Narrower g h
  | fields {g h : Grant} : g.kind = .fields → h.kind = .fields →
      (∀ name own, Keyed.find? g.children name = some own →
        (Keyed.find? h.children name).isSome) →
      (∀ name own wider, Keyed.find? g.children name = some own →
        Keyed.find? h.children name = some wider → Narrower own wider) → Narrower g h
  | elements {g h : Grant} : g.kind = .elements → h.kind = .elements →
      g.children ≠ [] → h.children ≠ [] →
      (∀ (index : Nat) own, g.element? index = some own → (h.element? index).isSome) →
      (∀ (index : Nat) own wider, g.element? index = some own →
        h.element? index = some wider → Narrower own wider) → Narrower g h

variable {g h own wider : Grant} {v : Value}

/-- Whether a value fits a grant depends on the kind of the grant. -/
theorem project_eq_none_congr (same : g.kind = h.kind) (v : Value) :
    g.project v = none ↔ h.project v = none := by
  simp only [project_eq_none_iff, Misfit, same]

/-- A value that does not fit the wider of two grants fits neither, which are of one kind. -/
theorem Narrower.kind_eq (narrower : own.Narrower wider) (misfit : wider.project v = none) :
    own.kind = wider.kind := by
  cases narrower with
  | whole kind => cases (project_of_whole kind v).symm.trans misfit
  | fields kind kind' | elements kind kind' => rw [kind, kind']

theorem projectEntries_wider {grants others : List (String × Grant)}
    (after : ∀ name own, Keyed.find? grants name = some own →
      ∃ wider, Keyed.find? others name = some wider ∧
        ∀ v, (wider.project v).bind own.project = own.project v)
    (entries : List (Value × Value)) :
    projectEntries grants (projectEntries others entries) = projectEntries grants entries := by
  induction entries with
  | nil => rfl
  | cons entry rest ih =>
    obtain ⟨key, v⟩ := entry
    rcases key.other_or_text with other | ⟨name, rfl⟩
    · rw [projectEntries_other grants other, projectEntries_other others other, ih]
    · have part : (((Keyed.find? others name).bind fun h => h.project v).bind fun kept =>
          (Keyed.find? grants name).bind fun g => g.project kept) =
          (Keyed.find? grants name).bind fun g => g.project v := by
        cases grant : Keyed.find? grants name with
        | none => simp
        | some own =>
          obtain ⟨wider, found, same⟩ := after name own grant
          simpa [found] using same v
      rw [projectEntries_text others, projectEntries_text grants, ← part]
      cases (Keyed.find? others name).bind fun h => h.project v with
      | none => exact ih
      | some kept => exact (projectEntries_text grants name kept _).trans (ih ▸ rfl)

/-- What stands for an element that does not fit stands for it after the wider grant too. -/
theorem Narrower.getD_project (narrower : own.Narrower wider)
    (same : (wider.project v).bind own.project = own.project v) :
    (own.project ((wider.project v).getD wider.placeholder)).getD own.placeholder =
      (own.project v).getD own.placeholder := by
  cases fits : wider.project v with
  | some kept =>
    rw [fits, Option.bind_some] at same
    rw [Option.getD_some, same]
  | none =>
    rw [fits, Option.bind_none] at same
    have placeholder : wider.placeholder = own.placeholder := by
      rw [Grant.placeholder, Grant.placeholder, narrower.kind_eq fits]
    rw [Option.getD_none, placeholder, project_placeholder same.symm, ← same]
    rfl

theorem projectItems_wider
    (after : ∀ (index : Nat) own, g.element? index = some own →
      ∃ wider, h.element? index = some wider ∧
        ∀ v, (own.project ((wider.project v).getD wider.placeholder)).getD own.placeholder =
          (own.project v).getD own.placeholder)
    (start : Nat) (items : List Value) :
    projectItems g start (projectItems h start items) = projectItems g start items := by
  induction items generalizing start with
  | nil => rfl
  | cons v rest ih =>
    cases grant : g.element? start with
    | none => cases found : h.element? start <;> simp [projectItems, grant, found]
    | some own =>
      obtain ⟨wider, found, same⟩ := after start own grant
      simp only [projectItems, grant, found, same, ih]

/-- **The wider grant first.** What it leaves of a value is enough for the narrower one. -/
theorem Narrower.project_bind (narrower : g.Narrower h) :
    ∀ v, (h.project v).bind g.project = g.project v := by
  induction narrower with
  | whole kind =>
    intro v
    rw [project_of_whole kind, Option.bind_some]
  | @fields g h kind kind' more each ih =>
    intro v
    cases fits : h.project v with
    | none =>
      exact ((project_eq_none_congr (kind.trans kind'.symm) v).mpr fits).symm
    | some p =>
      rcases project_cases fits with ⟨whole, _⟩ | ⟨_, entries, rfl, rfl⟩ | ⟨elements, _⟩
      · cases kind'.symm.trans whole
      · rw [Option.bind_some, project_of_fields kind, project_of_fields kind,
          projectEntries_wider fun name own grant => ?_]
        obtain ⟨wider, found⟩ := Option.isSome_iff_exists.mp (more name own grant)
        exact ⟨wider, found, ih name own wider grant found⟩
      · cases kind'.symm.trans elements
  | @elements g h kind kind' some some' more each ih =>
    intro v
    cases fits : h.project v with
    | none =>
      exact ((project_eq_none_congr (kind.trans kind'.symm) v).mpr fits).symm
    | some p =>
      rcases project_cases fits with ⟨whole, _⟩ | ⟨fields, _⟩ | ⟨_, items, sequence, rfl⟩
      · cases kind'.symm.trans whole
      · cases kind'.symm.trans fields
      · rw [Option.bind_some, project_of_elements kind rfl, project_of_elements kind sequence]
        simp only [List.isEmpty_iff, some, some', if_false]
        rw [projectItems_wider fun index own grant => ?_]
        obtain ⟨wider, found⟩ := Option.isSome_iff_exists.mp (more index own grant)
        exact ⟨wider, found, fun v =>
          (each index own wider grant found).getD_project (ih index own wider grant found v)⟩

end Grant

namespace GrantTree

open Grant

/-- **A narrower tree after a wider one.** It leaves what it leaves of the value itself, and all
leaves of that are left by the wider one. -/
theorem project_narrower {tree wider : GrantTree} (narrower : tree.top.Narrower wider.top)
    (v : Value) :
    tree.project (wider.project v) = tree.project v ∧
      ∀ place x, x.isContainer = false → (tree.project v).Holds place x →
        (wider.project v).Holds place x := by
  have same : tree.project (wider.project v) = tree.project v := by
    have after := narrower.project_bind v
    rw [project_eq_top wider, project_eq_top tree v, ← after]
    cases wider.top.project v with
    | none => rfl
    | some kept => rw [Option.getD_some, Option.bind_some, project_eq_top]
  refine ⟨same, fun place x plain held => ?_⟩
  rw [← same] at held
  exact (holds_of_project plain held).1

end GrantTree
end Permit
