import Permit.Proofs.Grant.Alike
import Permit.Proofs.Projection.Narrower
import Permit.Proofs.Session.Acceptance

/-!
More paths, and what they permit. A set of paths is widened (`PathSet.Widens`) by paths none
of which goes on below one of the first. What stands for it is then wider
(`Grant.Stands.narrower`): a path that ended keeps what it led to whole, and one that went on
goes on as it did, whatever wildcards are spread. Main statement: of two lists that compile,
one wider than the other, the narrower one permits the same after the wider one as alone, and
no leaf that the wider one does not permit (`Session.compile_project_narrower`).
-/
namespace Permit

namespace Path

/-- A path goes on below another one: it is longer, and its first segments are compatible with
those of the other. -/
def Overruns (q p : List String) : Prop :=
  p.length < q.length ∧ List.Forall₂ Compatible p (q.take p.length)

instance (q p : List String) : Decidable (Overruns q p) := inferInstanceAs (Decidable (_ ∧ _))

theorem Overruns.cons {p q : List String} {first second key : String} (h : Overruns q p)
    (leads : Leads first key) (leads' : Leads second key) :
    Overruns (second :: q) (first :: p) :=
  ⟨Nat.succ_lt_succ h.1, .cons (leads.compatible leads') h.2⟩

theorem overruns_nil {q : List String} (h : q ≠ []) : Overruns q [] :=
  ⟨List.length_pos_iff.mpr h, .nil⟩

end Path

namespace PathSet

open Permit.Path

variable {S T : PathSet} {key : String}

/-- The paths of a set and others, of which none goes on below one of the set. -/
structure Widens (S T : PathSet) : Prop where
  subset : S ⊆ T
  apart : ∀ q ∈ T, q ∉ S → ∀ p ∈ S, ¬ Overruns q p

namespace Widens

theorem below (h : Widens S T) (key : String) : Widens (below S key) (below T key) :=
  ⟨below_mono h.subset key, fun q inside new p there beyond =>
    h.apart (key :: q) inside new (key :: p) there (beyond.cons (.inl rfl) (.inl rfl))⟩

theorem through (h : Widens S T) (key : String) : Widens (through S key) (through T key) := by
  constructor
  · intro rest inside
    obtain ⟨segment, leads, inside⟩ := mem_through.mp inside
    exact mem_through.mpr ⟨segment, leads, h.subset inside⟩
  · intro q inside new p there beyond
    obtain ⟨second, leads', inside⟩ := mem_through.mp inside
    obtain ⟨first, leads, there⟩ := mem_through.mp there
    have new : second :: q ∉ S := fun old => new (mem_through.mpr ⟨second, leads', old⟩)
    exact h.apart _ inside new _ there (beyond.cons leads leads')

theorem below_eq_empty (h : Widens S T) (whole : HasKind S .whole) (nonempty : S.Nonempty) :
    PathSet.below T key = ∅ := by
  rw [Set.eq_empty_iff_forall_notMem]
  intro rest inside
  have none := below_eq_empty_of_whole whole key
  have new : key :: rest ∉ S := fun old => Set.eq_empty_iff_forall_notMem.mp none rest old
  obtain ⟨path, there⟩ := nonempty
  cases path with
  | nil => exact h.apart _ inside new [] there (overruns_nil (List.cons_ne_nil key rest))
  | cons segment path =>
    exact Set.eq_empty_iff_forall_notMem.mp (below_eq_empty_of_whole whole segment) path there

theorem kind_eq (h : Widens S T) (nonempty : S.Nonempty) {kind kind' : GrantKind}
    (asks : HasKind S kind) (asks' : HasKind T kind') : kind = kind' := by
  cases kind with
  | whole =>
    have none := hasKind_whole_of_below_eq_empty fun key => h.below_eq_empty asks nonempty
    exact none.unique asks'
  | fields =>
    cases kind' with
    | fields => rfl
    | whole => exact absurd (asks.1.mono h.subset) asks'.1
    | elements => exact absurd (asks.1.mono h.subset) asks'.2
  | elements =>
    cases kind' with
    | elements => rfl
    | whole => exact absurd (asks.1.mono h.subset) asks'.2
    | fields => exact absurd (asks.1.mono h.subset) asks'.2

end Widens

end PathSet

namespace Grant

open PathSet

variable {S : PathSet} {g : Grant}

/-- **A wider grant for more paths.** -/
theorem Stands.narrower (stands : Stands through S g) :
    ∀ {T : PathSet} {h : Grant}, Stands through T h → Widens S T → S.Nonempty →
      Narrower g h := by
  induction stands with
  | @node S kind children asks nodup present stands ih =>
    intro T h stands' widens nonempty
    obtain ⟨asks', branches'⟩ := stands_iff.mp stands'
    have mine : Stands through S (.node kind children) := .node asks nodup present stands
    have same : kind = h.kind := widens.kind_eq nonempty asks asks'
    cases kind with
    | whole => exact .whole same.symm
    | fields =>
      have narrow := fields_branches mine rfl
      have wide := fields_branches stands' same.symm
      refine .fields rfl same.symm (fun name own found => ?_) fun name own wider found found' => ?_
      · exact (wide.present name).mpr
          (((narrow.present name).mp (by rw [found]; rfl)).mono (below_mono widens.subset name))
      · have some := (narrow.present name).mp (by rw [found]; rfl)
        exact ih name own found (branches'.stands name wider found') (widens.through name)
          (some.mono below_subset_through)
    | elements =>
      have filled := elements_children mine rfl
      have filled' := elements_children stands' same.symm
      refine .elements rfl same.symm (by simpa using filled) (by simpa using filled')
        (fun index own found => ?_) fun index own wider found found' => ?_
      · rw [Option.isSome_iff_ne_none]
        intro absent
        have none := through_eq_empty stands' absent
        have some := (element_stands mine found).2.mono (widens.through _).subset
        rw [none] at some
        exact Set.not_nonempty_empty some
      · -- the grant of an element may be the one of every element in one of the two only
        obtain ⟨key, inside, leads⟩ := exists_find?_of_element? mine found
        have some := (element_stands mine found).2
        refine ih key own inside (element_stands stands' found').1 ?_ ?_
        · exact leads ▸ widens.through _
        · exact leads ▸ some

end Grant

namespace GrantTree

open PathSet Grant

/-- Of two lists that compile, the one with more paths has the wider tree. -/
theorem compile_narrower {limit limit' : Int} {texts others : List String}
    {tree wider : GrantTree} (h : compile limit (texts.map Value.text) = .ok tree)
    (h' : compile limit' (others.map Value.text) = .ok wider)
    (widens : Widens (pathSet texts) (pathSet others)) : tree.top.Narrower wider.top := by
  have narrow := compile_branches h
  have wide := compile_branches h'
  have some {name : String} {own : Grant} (found : Keyed.find? tree.children name = some own) :
      (PathSet.below (pathSet texts) name).Nonempty :=
    (narrow.present name).mp (by rw [found]; rfl)
  refine .fields rfl rfl (fun name own found => ?_) fun name own other found found' => ?_
  · exact (wide.present name).mpr ((some found).mono (below_mono widens.subset name))
  · exact (narrow.stands name own found).narrower (wide.stands name other found')
      (widens.below name) (some found)

end GrantTree

namespace Session

open Permit.Action

/-- Whatever a list of texts compiles to in a session is the tree of the list. -/
theorem exists_compile_of_run {s s' : Session} {texts : List String} {compiled : Compiled}
    (run : (compile (.texts texts)).run s = (.ok compiled, s')) :
    ∃ limit, GrantTree.compile limit (texts.map Value.text) = .ok compiled.tree := by
  obtain ⟨items, given, found⟩ := treeOf_eq_of_compile run
  obtain rfl : texts.map Value.text = items := Option.some.inj given
  exact treeOf_compiled found

/-- **More paths.** To a list of paths others are added, of which none goes on below one of the
list. In whatever sessions the two lists compile, the tree of the first leaves the same of a value
whether or not the tree of the second went before, and every leaf that the first leaves the second
leaves at the same position. -/
theorem compile_project_narrower {s₁ s₁' s₂ s₂' : Session} {texts others : List String}
    {first second : Compiled} (run : (compile (.texts texts)).run s₁ = (.ok first, s₁'))
    (run' : (compile (.texts others)).run s₂ = (.ok second, s₂'))
    (listed : ∀ path ∈ texts, path ∈ others)
    (apart : ∀ q ∈ others, q ∉ texts → ∀ p ∈ texts,
      ¬ Path.Overruns (Path.segments q) (Path.segments p)) (v : Value) :
    first.tree.project (second.tree.project v) = first.tree.project v ∧
      ∀ place x, x.isContainer = false → (first.tree.project v).Holds place x →
        (second.tree.project v).Holds place x := by
  obtain ⟨limit, built⟩ := exists_compile_of_run run
  obtain ⟨limit', built'⟩ := exists_compile_of_run run'
  have widens : PathSet.Widens (GrantTree.pathSet texts) (GrantTree.pathSet others) := by
    constructor
    · intro parts inside
      obtain ⟨path, there, rfl⟩ := List.mem_map.mp inside
      exact List.mem_map_of_mem (listed path there)
    · intro parts inside new parts' inside'
      obtain ⟨q, there, rfl⟩ := List.mem_map.mp inside
      obtain ⟨p, there', rfl⟩ := List.mem_map.mp inside'
      exact apart q there (fun old => new (List.mem_map_of_mem old)) p there'
  exact GrantTree.project_narrower (GrantTree.compile_narrower built built' widens) v

/-- A wildcard beside an index is merged into it, and lets through the element after it. -/
theorem compile_project_narrower_wildcard :
    ∃ (v : Value) (first second : Compiled) (s₁ s₂ : Session),
      (compile (.texts ["a.0.x"])).run {} = (.ok first, s₁) ∧
      (compile (.texts ["a.*.y", "b", "a.0.x"])).run {} = (.ok second, s₂) ∧
      first.tree.project v =
        .map [(.text "a", .list [.map [(.text "x", .int 1)]])] ∧
      second.tree.project v =
        .map [(.text "a", .list [.map [(.text "x", .int 1), (.text "y", .int 2)],
          .map [(.text "y", .int 4)]])] ∧
      first.tree.project (second.tree.project v) = first.tree.project v ∧
      (second.tree.project v).Holds [.key (.text "a"), .index 0, .key (.text "x")] (.int 1) := by
  have runs : ((compile (.texts ["a.0.x"])).run ({} : Session)).1.toOption.isSome = true := by
    decide +kernel
  have runs' : ((compile (.texts ["a.*.y", "b", "a.0.x"])).run ({} : Session)).1.toOption.isSome =
      true := by decide +kernel
  obtain ⟨first, s₁, run⟩ := exists_run runs
  obtain ⟨second, s₂, run'⟩ := exists_run runs'
  obtain ⟨limit, built⟩ := exists_compile_of_run run
  obtain ⟨limit', built'⟩ := exists_compile_of_run run'
  let entries : List (Value × Value) := [(.text "a", .list [
    .map [(.text "x", .int 1), (.text "y", .int 2), (.text "z", .int 3)],
    .map [(.text "y", .int 4), (.text "x", .int 5)]])]
  have left : first.tree.project (.map entries) =
      .map [(.text "a", .list [.map [(.text "x", .int 1)]])] := by
    refine Option.some.inj ((GrantTree.whole_shown built entries).symm.trans ?_)
    rfl
  have left' : second.tree.project (.map entries) =
      .map [(.text "a", .list [.map [(.text "x", .int 1), (.text "y", .int 2)],
        .map [(.text "y", .int 4)]])] := by
    refine Option.some.inj ((GrantTree.whole_shown built' entries).symm.trans ?_)
    rfl
  obtain ⟨same, leaves⟩ := compile_project_narrower run run' (by decide)
    (by decide +kernel) (.map entries)
  refine ⟨.map entries, first, second, s₁, s₂, run, run', left, left', same, leaves _ _ rfl ?_⟩
  rw [left]
  exact .key (List.mem_singleton_self _)
    (.index rfl rfl (.key (List.mem_singleton_self _) (.here _)))

end Session
end Permit
