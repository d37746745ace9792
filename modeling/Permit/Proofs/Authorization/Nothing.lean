import Permit.Enforcement
import Permit.Proofs.Authorization.Totality
import Permit.Proofs.Diff.Silence
import Permit.Proofs.Value.Position

namespace Permit

/-- Data that hold nothing: absent ones, and containers without anything in them. -/
def Value.isHollow : Value → Bool
  | .null => true
  | .list items => items.isEmpty
  | .tuple items => items.isEmpty
  | .map entries => entries.isEmpty
  | _ => false

namespace Diff

open Outcome

/-- From an empty mapping there is no change just to what holds nothing. -/
theorem between_empty_iff {limit : Int} {data : Value} :
    between limit (.map []) (Authorization.orEmpty data) = .ok [] ↔ data.isHollow = true := by
  constructor
  · intro run
    have silent := silent_of_between run
    cases data with
    | null => rfl
    | map entries =>
      cases entries with
      | nil => rfl
      | cons entry rest =>
        cases silent with
        | same same => cases same
        | walked before after keys =>
          cases before
          obtain ⟨name, _, there⟩ := exists_of_mem_textKeys after (List.mem_cons_self ..)
          cases (keys name).mpr there
    | list items | tuple items =>
      cases items with
      | nil => rfl
      | cons item rest =>
        cases silent with
        | same same => cases same
        | walked before after keys =>
          cases before
          cases after
          cases (keys (Number.natText 0)).mpr (by simp [positions, Keyed.find?])
    | incomparable identity refusal => cases refusal <;> cases run
    | _ => cases run
  · intro hollow
    cases data with
    | null => rfl
    | map entries =>
      cases entries with
      | nil => rfl
      | cons => cases hollow
    | list items | tuple items =>
      cases items with
      | nil =>
        -- an empty sequence differs from an empty mapping, and is walked to no effect
        change (walk limit _ [] 1 (.map []) _).map collect = .ok []
        rw [walk_eq_of_view rfl rfl]
        rfl
      | cons => cases hollow
    | _ => cases hollow

end Diff

namespace GrantTree

/-- A tree without grants. -/
def Bare (tree : GrantTree) : Prop := tree.children = []

theorem bare_of_compile {limit : Int} {tree : GrantTree} (h : compile limit [] = .ok tree) :
    tree.Bare := by
  cases h
  rfl

/-- A tree without grants keeps nothing of any value. -/
theorem Bare.project {tree : GrantTree} (bare : tree.Bare) (v : Value) :
    tree.project v = .map [] := by
  cases v with
  | map entries =>
    have none : Grant.projectEntries [] entries = [] := by
      rw [List.eq_nil_iff_forall_not_mem]
      intro entry kept
      obtain ⟨name, own, v, _, _, grant, _⟩ := Grant.mem_projectEntries.mp kept
      cases grant
    rw [GrantTree.project, bare, none]
  | _ => rfl

end GrantTree

/-- However little a session keeps, the empty list of paths has a tree without grants. -/
theorem Session.exists_treeOf_nil (s : Session) : ∃ tree, s.treeOf [] = .ok tree ∧ tree.Bare := by
  have some : ∃ tree, s.treeOf [] = .ok tree := by
    rw [treeOf]
    split
    · exact ⟨_, rfl⟩
    · exact ⟨_, rfl⟩
  obtain ⟨tree, found⟩ := some
  obtain ⟨limit, compiles⟩ := treeOf_compiled found
  exact ⟨tree, found, GrantTree.bare_of_compile compiles⟩

namespace Authorization

open Permit.Action Constraint Outcome

variable {s : Session} {data : Value} {tree : GrantTree}

/-- Of data under a tree without grants, no field is reported just if they hold nothing. -/
theorem unauthorized_bare_iff {limit : Int} (bare : tree.Bare) :
    unauthorized limit tree (orEmpty data) = .ok [] ↔ data.isHollow = true := by
  rw [← @Diff.between_empty_iff limit, unauthorized, bare.project, map_eq_ok_iff]
  constructor
  · rintro ⟨changes, run, none⟩
    obtain rfl := List.map_eq_nil_iff.mp none
    exact mapError_eq_ok_iff.mp run
  · intro run
    exact ⟨[], mapError_eq_ok_iff.mpr run, rfl⟩

/-- **An empty declaration permits nothing.** A request passes under it just if its data hold
nothing. -/
theorem check_nothing_iff :
    (∃ s', (check Evaluator.engine (.list []) data).run s = (.ok (), s')) ↔
      data.isHollow = true := by
  have declares (s : Session) :
      normalize s.settings.defaultRule (.list []) = .ok (some []) := rfl
  obtain ⟨tree, found, bare⟩ := s.exists_treeOf_nil
  have ends : Ends (checkFields (.list []) data) s
      (unauthorized s.settings.maxDiffDepth tree (orEmpty data) >>= verdict) :=
    ends_checkFields_of_compiles (declares s) found
  constructor
  · rintro ⟨s', passes⟩
    obtain ⟨s₁, _, fieldsPass, _⟩ := checks_of_check passes
    obtain ⟨fields, reported, none⟩ := bind_eq_ok_iff.mp (ends.outcome_eq fieldsPass).1.symm
    rw [verdict] at none
    split at none
    next empty =>
      rw [List.isEmpty_iff.mp empty] at reported
      exact (unauthorized_bare_iff bare).mp reported
    next => cases none
  · intro hollow
    rw [(unauthorized_bare_iff bare).mpr hollow] at ends
    have both : Ends (do
        checkFields (.list []) data
        checkValues Evaluator.engine (.list []) data : Action Unit) s (.ok ()) :=
      Ends.bind (a := ()) ends fun s₁ _ => by
        have none : evaluate s₁.rules [] .all (orEmpty data) (.map []) = .ok [] := rfl
        exact ends_checkValues_of_breaches (declares s₁) none
    obtain ⟨s', run, _⟩ := ends_counted both
    exact ⟨s', run⟩

end Authorization

namespace Response

open Value (Holds)

variable {tree : GrantTree} {x : Value} {place : List Step}

theorem isContainer_of_holds_project {v : Value} (bare : tree.Bare)
    (held : (tree.project v).Holds place x) : x.isContainer = true := by
  rw [bare.project] at held
  cases held with
  | here => rfl
  | key inside => cases inside
  | index sequence => cases sequence

theorem isContainer_of_holds_shapeItems {items : List Value} (bare : tree.Bare)
    (held : (shapeItems tree items).Holds place x) : x.isContainer = true := by
  cases held with
  | here => rfl
  | index sequence found inner =>
    cases sequence
    obtain ⟨item, _, rfl⟩ := List.mem_map.mp (List.mem_of_getElem? found)
    exact isContainer_of_holds_project bare inner

/-- A value that an envelope holds beside its items. -/
def BesideItems (content : Value) (place : List Step) (x : Value) : Prop :=
  ∃ entries items key w rest, content = .map entries ∧ envelopeItems? entries = some items ∧
    (key, w) ∈ entries ∧ key.sameKey (.text dataKey) = false ∧ place = .key key :: rest ∧
    w.Holds rest x

/-- **What is left of a response** under a tree without grants: a leaf of it is one of an
envelope, beside its items. -/
theorem besideItems_of_shape {content : Value} (bare : tree.Bare)
    (held : (shape tree content).Holds place x) (leaf : x.isContainer = false) :
    BesideItems content.toPlain place x := by
  have none {P : Prop} (container : x.isContainer = true) : P := by
    rw [leaf] at container
    cases container
  rw [shape] at held
  generalize content.toPlain = plain at held ⊢
  unfold shapePlain at held
  split at held
  next entries =>
    split at held
    next items envelope =>
      cases held with
      | here => exact none rfl
      | index sequence => cases sequence
      | @key _ key w _ rest inside inner =>
        obtain ⟨entry, given, shaped⟩ := List.mem_map.mp inside
        rw [shapeEntry] at shaped
        split at shaped
        next =>
          cases shaped
          exact none (isContainer_of_holds_shapeItems bare inner)
        next other =>
          subst shaped
          exact ⟨entries, items, key, w, rest, rfl, envelope, given, by simpa using other, rfl,
            inner⟩
    next => exact none (isContainer_of_holds_project bare held)
  next => exact none (isContainer_of_holds_shapeItems bare held)
  next => exact none (isContainer_of_holds_shapeItems bare held)
  next => exact none (isContainer_of_holds_project bare held)

end Response

namespace Authorization

open Permit.Action

theorem ends_compile_nothing (s : Session) :
    ∃ compiled : Session.Compiled, compiled.tree.Bare ∧
      Ends (Session.compile (.list [])) s (.ok compiled) := by
  obtain ⟨tree, found, bare⟩ := Session.exists_treeOf_nil s
  obtain ⟨compiled, same, s', run, keeps⟩ := Session.ends_compileItems_ok found
  exact ⟨compiled, same ▸ bare, s', (Session.run_compile_texts [] s).trans run, keeps⟩

/-- Under an empty declaration a response is shaped by a tree without grants, if it carries
anything. -/
theorem ends_projectResponse_nothing (content : Value) (s : Session) :
    ∃ result, ((content = .null ∧ result = .null) ∨
        ∃ tree : GrantTree, tree.Bare ∧ result = Response.shape tree content) ∧
      Ends (projectResponse (.list []) content) s (.ok result) := by
  refine Ends.bind_exists (a := ()) (ends_count _) fun s₁ _ => ?_
  by_cases null : content = .null
  · subst null
    exact ⟨.null, .inl ⟨rfl, rfl⟩, ends_pure _⟩
  · simp only [Session.shapeResponse_of_ne_null null]
    obtain ⟨compiled, bare, ends⟩ := ends_compile_nothing s₁
    refine ⟨_, .inr ⟨compiled.tree, bare, rfl⟩, ends.bind fun s₂ _ => ?_⟩
    exact ends_pure _

end Authorization
end Permit
