import Mathlib.Logic.Relation
import Permit.Proofs.Projection.Confinement

/-!
What is not permitted does not show. `Grant.Unseen` relates a value to what an edit makes of it
at one position that the grants do not permit: under a key without a grant, in the tail of a
sequence after an index without one, or of a value that does not fit its grant. Main statement:
no number of such edits, at any depth, changes the projection (`GrantTree.project_unaffected`),
be it in what it holds, in the order of keys or in the length of a sequence.
-/
namespace Permit

namespace Grant

/-- There is no grant for a key; there is none for a key that is no text. -/
def Lacks (g : Grant) (key : Value) : Prop :=
  ∀ name, key = .text name → Keyed.find? g.children name = none

/-- One edit of a value, at a position that its grant does not permit. -/
inductive Unseen : Grant → Value → Value → Prop where
  | inserted {g : Grant} {key v : Value} {before after : List (Value × Value)} :
      g.kind = .fields → g.Lacks key →
      Unseen g (.map (before ++ after)) (.map (before ++ (key, v) :: after))
  | removed {g : Grant} {key v : Value} {before after : List (Value × Value)} :
      g.kind = .fields → g.Lacks key →
      Unseen g (.map (before ++ (key, v) :: after)) (.map (before ++ after))
  | replaced {g : Grant} {key v w : Value} {before after : List (Value × Value)} :
      g.kind = .fields → g.Lacks key →
      Unseen g (.map (before ++ (key, v) :: after)) (.map (before ++ (key, w) :: after))
  /-- From an index without a grant on, a sequence may go on in any way. -/
  | tail {g : Grant} {v w : Value} {start rest rest' : List Value} :
      g.kind = .elements → g.children ≠ [] → g.element? (start.length : Int) = none →
      v.items? = some (start ++ rest) → w.items? = some (start ++ rest') → Unseen g v w
  | misfit {g : Grant} {v w : Value} : g.Misfit v → g.Misfit w → Unseen g v w
  /-- An edit further down, under a key with a grant. -/
  | field {g own : Grant} {name : String} {v w : Value} {before after : List (Value × Value)} :
      g.kind = .fields → Keyed.find? g.children name = some own → Unseen own v w →
      Unseen g (.map (before ++ (.text name, v) :: after))
        (.map (before ++ (.text name, w) :: after))
  /-- An edit further down, in an element with a grant. -/
  | element {g own : Grant} {u u' v w : Value} {before after : List Value} :
      g.kind = .elements → g.element? (before.length : Int) = some own → Unseen own v w →
      u.items? = some (before ++ v :: after) → u'.items? = some (before ++ w :: after) →
      Unseen g u u'

variable {g own : Grant} {key u u' v w : Value}

/-! ### Entries -/

theorem projectEntries_append (grants : List (String × Grant)) (xs ys : List (Value × Value)) :
    projectEntries grants (xs ++ ys) = projectEntries grants xs ++ projectEntries grants ys := by
  induction xs with
  | nil => rfl
  | cons entry rest ih =>
    obtain ⟨key, v⟩ := entry
    rcases key.other_or_text with other | ⟨name, rfl⟩
    · rw [List.cons_append, projectEntries_other grants other, projectEntries_other grants other,
        ih]
    · rw [List.cons_append, projectEntries_text, projectEntries_text, ih, List.append_assoc]

theorem projectEntries_lacks (lacks : g.Lacks key) (v : Value) (rest : List (Value × Value)) :
    projectEntries g.children ((key, v) :: rest) = projectEntries g.children rest := by
  rcases key.other_or_text with other | ⟨name, rfl⟩
  · exact projectEntries_other g.children other v rest
  · rw [projectEntries_text, lacks name rfl]
    rfl

theorem project_lacks (kind : g.kind = .fields) (lacks : g.Lacks key) (v : Value)
    (before after : List (Value × Value)) :
    g.project (.map (before ++ (key, v) :: after)) = g.project (.map (before ++ after)) := by
  rw [project_of_fields kind, project_of_fields kind, projectEntries_append,
    projectEntries_append, projectEntries_lacks lacks]

theorem project_field (kind : g.kind = .fields) {name : String}
    (grant : Keyed.find? g.children name = some own) (same : own.project v = own.project w)
    (before after : List (Value × Value)) :
    g.project (.map (before ++ (.text name, v) :: after)) =
      g.project (.map (before ++ (.text name, w) :: after)) := by
  rw [project_of_fields kind, project_of_fields kind, projectEntries_append,
    projectEntries_append, projectEntries_text, projectEntries_text, grant, Option.bind_some,
    Option.bind_some, same]

/-! ### Elements -/

/-- Nothing is kept from an index without a grant on. -/
theorem projectItems_cut {start : Nat} {items : List Value}
    (absent : g.element? ((start + items.length : Nat) : Int) = none) (rest : List Value) :
    projectItems g start (items ++ rest) = projectItems g start items := by
  induction items generalizing start with
  | nil =>
    rw [List.length_nil, Nat.add_zero] at absent
    cases rest with
    | nil => rfl
    | cons v rest => simp [projectItems, absent]
  | cons v items ih =>
    have others : projectItems g (start + 1) (items ++ rest) = projectItems g (start + 1) items := by
      apply ih
      rwa [List.length_cons, ← Nat.add_assoc, Nat.add_right_comm] at absent
    simp only [List.cons_append, projectItems, others]

theorem projectItems_element {start : Nat} {before after : List Value}
    (grant : g.element? ((start + before.length : Nat) : Int) = some own)
    (same : own.project v = own.project w) :
    projectItems g start (before ++ v :: after) = projectItems g start (before ++ w :: after) := by
  induction before generalizing start with
  | nil =>
    rw [List.length_nil, Nat.add_zero] at grant
    simp only [List.nil_append, projectItems, grant, same]
  | cons x before ih =>
    have others : projectItems g (start + 1) (before ++ v :: after) =
        projectItems g (start + 1) (before ++ w :: after) := by
      apply ih
      rwa [List.length_cons, ← Nat.add_assoc, Nat.add_right_comm] at grant
    simp only [List.cons_append, projectItems, others]

/-- What two sequences are projected to is the same if their elements are. -/
theorem project_items_congr (kind : g.kind = .elements) (some : g.children ≠ [])
    {items items' : List Value} (sequence : u.items? = .some items)
    (sequence' : u'.items? = .some items')
    (same : projectItems g 0 items = projectItems g 0 items') : g.project u = g.project u' := by
  rw [project_of_elements kind sequence, project_of_elements kind sequence']
  simp only [List.isEmpty_iff, some, if_false, same]

/-! ### Edits -/

/-- **One edit.** Where a grant does not permit it, an edit does not show. -/
theorem Unseen.project_eq (h : Unseen g v w) : g.project v = g.project w := by
  induction h with
  | inserted kind lacks => exact (project_lacks kind lacks _ _ _).symm
  | removed kind lacks => exact project_lacks kind lacks _ _ _
  | replaced kind lacks => rw [project_lacks kind lacks, project_lacks kind lacks]
  | @tail g v w start rest rest' kind some absent sequence sequence' =>
    refine project_items_congr kind some sequence sequence' ?_
    rw [← Nat.zero_add start.length] at absent
    rw [projectItems_cut absent, projectItems_cut absent]
  | misfit left right => rw [project_eq_none_iff.mpr left, project_eq_none_iff.mpr right]
  | field kind grant _ ih => exact project_field kind grant ih _ _
  | @element g own u u' v w before after kind grant _ sequence sequence' ih =>
    refine project_items_congr kind (children_ne_nil grant) sequence sequence' ?_
    rw [← Nat.zero_add before.length] at grant
    exact projectItems_element grant ih

/-- **Any number of edits.** -/
theorem project_eq_of_unseen (h : Relation.ReflTransGen g.Unseen v w) :
    g.project v = g.project w := by
  induction h with
  | refl => rfl
  | tail _ edit ih => exact ih.trans edit.project_eq

end Grant

namespace GrantTree

open Grant

/-- **Noninterference.** Two values of which one comes of the other by edits where a tree
permits nothing have one projection. -/
theorem project_unaffected {tree : GrantTree} {v w : Value}
    (h : Relation.ReflTransGen tree.top.Unseen v w) : tree.project v = tree.project w := by
  rw [project_eq_top, project_eq_top, project_eq_of_unseen h]

/-- A field is removed from an element, an element that does not fit is replaced, a tail goes
on in another way, and a key that is no text is put before the others. -/
theorem project_unaffected_edits :
    ∃ (tree : GrantTree) (v w : Value), tree.root = .node .fields
        [("users", .node .elements [("*", .node .fields [("name", .whole)])]),
          ("rows", .node .elements [("0", .whole)])] ∧
      v = .map [(.text "users", .list [.map [(.text "name", .null), (.text "key", .int 1)], .int 5]),
        (.text "rows", .tuple [.int 1, .int 2])] ∧
      w = .map [(.null, .int 3), (.text "users", .list [.map [(.text "name", .null)], .null]),
        (.text "rows", .tuple [.int 1, .int 7, .int 8])] ∧
      Relation.ReflTransGen tree.top.Unseen v w ∧ tree.project v = tree.project w := by
  let user : Grant := .node .fields [("name", .whole)]
  let users : Grant := .node .elements [("*", user)]
  let rows : Grant := .node .elements [("0", .whole)]
  let tree : GrantTree := ⟨.node .fields [("users", users), ("rows", rows)], []⟩
  have lacks : user.Lacks (.text "key") := by
    rintro name ⟨⟩
    rfl
  have removed : user.Unseen (.map [(.text "name", .null), (.text "key", .int 1)])
      (.map [(.text "name", .null)]) :=
    @Unseen.removed user (.text "key") (.int 1) [(.text "name", .null)] [] rfl lacks
  have misfit : user.Unseen (.int 5) .null := .misfit (.inl ⟨rfl, nofun⟩) (.inl ⟨rfl, nofun⟩)
  have tail : rows.Unseen (.tuple [.int 1, .int 2]) (.tuple [.int 1, .int 7, .int 8]) :=
    @Unseen.tail rows _ _ [.int 1] [.int 2] [.int 7, .int 8] rfl nofun rfl rfl rfl
  have first : tree.top.Unseen
      (.map [(.text "users", .list [.map [(.text "name", .null), (.text "key", .int 1)], .int 5]),
        (.text "rows", .tuple [.int 1, .int 2])])
      (.map [(.text "users", .list [.map [(.text "name", .null)], .int 5]),
        (.text "rows", .tuple [.int 1, .int 2])]) :=
    @Unseen.field tree.top users "users" _ _ [] _ rfl rfl
      (@Unseen.element users user _ _ _ _ [] [.int 5] rfl rfl removed rfl rfl)
  have second : tree.top.Unseen
      (.map [(.text "users", .list [.map [(.text "name", .null)], .int 5]),
        (.text "rows", .tuple [.int 1, .int 2])])
      (.map [(.text "users", .list [.map [(.text "name", .null)], .null]),
        (.text "rows", .tuple [.int 1, .int 2])]) :=
    @Unseen.field tree.top users "users" _ _ [] _ rfl rfl
      (@Unseen.element users user _ _ _ _ [.map [(.text "name", .null)]] [] rfl rfl misfit rfl rfl)
  have third : tree.top.Unseen
      (.map [(.text "users", .list [.map [(.text "name", .null)], .null]),
        (.text "rows", .tuple [.int 1, .int 2])])
      (.map [(.text "users", .list [.map [(.text "name", .null)], .null]),
        (.text "rows", .tuple [.int 1, .int 7, .int 8])]) :=
    @Unseen.field tree.top rows "rows" _ _ [(.text "users", _)] [] rfl rfl tail
  have fourth : tree.top.Unseen
      (.map [(.text "users", .list [.map [(.text "name", .null)], .null]),
        (.text "rows", .tuple [.int 1, .int 7, .int 8])])
      (.map [(.null, .int 3), (.text "users", .list [.map [(.text "name", .null)], .null]),
        (.text "rows", .tuple [.int 1, .int 7, .int 8])]) :=
    @Unseen.inserted tree.top .null (.int 3) [] _ rfl nofun
  have edits := (((Relation.ReflTransGen.single first).tail second).tail third).tail fourth
  exact ⟨tree, _, _, rfl, rfl, rfl, edits, project_unaffected edits⟩

end GrantTree
end Permit
