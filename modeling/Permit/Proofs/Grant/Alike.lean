import Permit.Proofs.Grant.Acceptance

namespace Permit

namespace PathSet

structure Covers (S T : PathSet) : Prop where
  subset : S ⊆ T
  longer : ∀ path ∈ T, ∃ long ∈ S, path <+: long

variable {S T U : PathSet}

namespace Covers

theorem refl (S : PathSet) : Covers S S :=
  ⟨subset_rfl, fun path inside => ⟨path, inside, List.prefix_rfl⟩⟩

theorem trans (h : Covers S T) (h' : Covers T U) : Covers S U := by
  refine ⟨h.subset.trans h'.subset, fun path inside => ?_⟩
  obtain ⟨longer, there, begins⟩ := h'.longer path inside
  obtain ⟨long, kept, begins'⟩ := h.longer longer there
  exact ⟨long, kept, begins.trans begins'⟩

/-- The rest of a longer path, after the segment that a path begins with. -/
theorem rest_of_longer (h : Covers S T) {segment : String} {rest : List String}
    (inside : segment :: rest ∈ T) : ∃ long, segment :: long ∈ S ∧ rest <+: long := by
  obtain ⟨_, kept, more, rfl⟩ := h.longer _ inside
  exact ⟨rest ++ more, kept, List.prefix_append ..⟩

theorem below (h : Covers S T) (key : String) : Covers (below S key) (below T key) :=
  ⟨below_mono h.subset key, fun _ inside => h.rest_of_longer inside⟩

theorem through (h : Covers S T) (key : String) : Covers (through S key) (through T key) := by
  constructor
  · rintro rest (inside | ⟨selector, inside⟩)
    · exact .inl (h.subset inside)
    · exact .inr ⟨selector, h.subset inside⟩
  · rintro rest (inside | ⟨selector, inside⟩)
    · obtain ⟨long, kept, begins⟩ := h.rest_of_longer inside
      exact ⟨long, .inl kept, begins⟩
    · obtain ⟨long, kept, begins⟩ := h.rest_of_longer inside
      exact ⟨long, .inr ⟨selector, kept⟩, begins⟩

theorem nonempty_iff (h : Covers S T) : S.Nonempty ↔ T.Nonempty := by
  constructor
  · exact Set.Nonempty.mono h.subset
  · rintro ⟨path, inside⟩
    obtain ⟨long, kept, _⟩ := h.longer path inside
    exact ⟨long, kept⟩

theorem names_iff (h : Covers S T) : Names S ↔ Names T := by
  simp only [Names, (h.below _).nonempty_iff]

theorem selects_iff (h : Covers S T) : Selects S ↔ Selects T := by
  simp only [Selects, (h.below _).nonempty_iff]

theorem along (h : Covers S T) (place : List String) :
    Covers (along PathSet.through S place) (along PathSet.through T place) := by
  induction place generalizing S T with
  | nil => exact h
  | cons key place ih => exact ih (h.through key)

theorem unmixed_iff (h : Covers S T) : Unmixed PathSet.through S ↔ Unmixed PathSet.through T := by
  refine forall_congr' fun place => ?_
  rw [(h.along place).names_iff, (h.along place).selects_iff]

end Covers

theorem HasKind.unique {kind kind' : GrantKind} (h : HasKind S kind) (h' : HasKind S kind') :
    kind = kind' := by
  cases kind <;> cases kind' <;> simp_all [HasKind]

theorem Covers.hasKind_iff (h : Covers S T) (kind : GrantKind) :
    HasKind S kind ↔ HasKind T kind := by
  cases kind <;> simp only [HasKind, h.names_iff, h.selects_iff]

end PathSet

namespace Grant

open PathSet

/-- Two grants that are the same but for the order of children: they are of one kind and
have the same keys, with grants under each key that are alike in turn. -/
inductive Alike : Grant → Grant → Prop where
  | node {kind : GrantKind} {children others : List (String × Grant)} :
      (Keyed.keys children).Perm (Keyed.keys others) →
      (∀ key g h, Keyed.find? children key = some g → Keyed.find? others key = some h →
        Alike g h) →
      Alike (.node kind children) (.node kind others)

variable {S T : PathSet} {reach reach' : String → PathSet} {children others : List (String × Grant)}

theorem Branches.keys_perm (h : Branches through (PathSet.below S) reach children)
    (h' : Branches through (PathSet.below T) reach' others) (covers : Covers S T) :
    (Keyed.keys children).Perm (Keyed.keys others) := by
  rw [List.perm_ext_iff_of_nodup h.nodup h'.nodup]
  intro key
  rw [← Keyed.isSome_find?_iff, ← Keyed.isSome_find?_iff, h.present, h'.present,
    (covers.below key).nonempty_iff]

/-- **One tree for a set of paths.** What stands for paths is the same, but for the order of
children, as what stands for any of them that cover the others. -/
theorem Stands.alike {g : Grant} (stands : Stands through S g) :
    ∀ {T : PathSet} {h : Grant}, Stands through T h → Covers S T → Alike g h := by
  induction stands with
  | @node S kind children hasKind nodup present stands ih =>
    intro T h stands' covers
    cases stands' with
    | @node T kind' others hasKind' nodup' present' stands' =>
      obtain rfl : kind = kind' := ((covers.hasKind_iff kind).mp hasKind).unique hasKind'
      have mine : Branches through (PathSet.below S) (PathSet.through S) children :=
        ⟨nodup, present, stands⟩
      refine .node (mine.keys_perm ⟨nodup', present', stands'⟩ covers) ?_
      intro key g h found found'
      exact ih key g found (stands' key h found') (covers.through key)

end Grant

namespace GrantTree

open PathSet Grant

variable {limit limit' : Int} {texts texts' : List String} {tree tree' : GrantTree}

/-- Trees of lists of paths of which one covers the other are the same but for the order of
children. -/
theorem compile_alike (h : compile limit (texts.map Value.text) = .ok tree)
    (h' : compile limit' (texts'.map Value.text) = .ok tree')
    (covers : Covers (pathSet texts) (pathSet texts')) : tree.root.Alike tree'.root := by
  have mine := compile_branches h
  have other := compile_branches h'
  obtain ⟨_, _, closed, _, _, rfl⟩ := compile_eq_ok_iff.mp h
  obtain ⟨_, _, closed', _, _, rfl⟩ := compile_eq_ok_iff.mp h'
  refine .node (mine.keys_perm other covers) ?_
  intro key g g' found found'
  exact (mine.stands key g found).alike (other.stands key g' found') (covers.below key)

end GrantTree
end Permit
